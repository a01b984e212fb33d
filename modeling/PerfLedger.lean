import PerfLedger.About
import PerfLedger.Settings.File
import PerfLedger.Store.Direct
import PerfLedger.Proofs.Store.Access
import PerfLedger.Proofs.Store.Record
import PerfLedger.Proofs.Store.Residue
import PerfLedger.Proofs.Decimal.Digits
import PerfLedger.Proofs.Decimal.Text
import PerfLedger.Proofs.Decimal.Same
import PerfLedger.Proofs.Decimal.Rounding
import PerfLedger.Proofs.Results.Baselines
import PerfLedger.Proofs.Store.Sorting
import PerfLedger.Proofs.Measure.Base
import PerfLedger.Proofs.Store.Log
import PerfLedger.Proofs.Store.History
import PerfLedger.Proofs.Store.Session
import PerfLedger.Proofs.Decimal.Scale
import PerfLedger.Proofs.Decimal.Sum
import PerfLedger.Proofs.Decimal.Congr
import PerfLedger.Proofs.Measure.Restored
import PerfLedger.Proofs.Results.Statistics
import PerfLedger.Proofs.Store.Reproduction
import PerfLedger.Proofs.Database.Growth
import PerfLedger.Proofs.Store.Integrity
import PerfLedger.Proofs.Store.Isolation
import PerfLedger.Proofs.Store.Request
import PerfLedger.Proofs.Store.Lifecycle
import PerfLedger.Proofs.Files.Directories
import PerfLedger.Proofs.Store.Recovery
import PerfLedger.Proofs.Store.Exchange
import PerfLedger.Proofs.Store.Cause
import PerfLedger.Proofs.Store.Queries
import PerfLedger.Proofs.Settings.Load
import PerfLedger.Proofs.Settings.Save
import PerfLedger.Proofs.Decimal.Nearest
import PerfLedger.Proofs.Decimal.Value
import PerfLedger.Proofs.Decimal.Answer
import PerfLedger.Measure.Hash
import PerfLedger.Proofs.Measure.Exact
import PerfLedger.Proofs.Measure.Comparison
import PerfLedger.Proofs.Measure.Conversion
import PerfLedger.Proofs.Measure.Commutation
import PerfLedger.Database.Schema
import PerfLedger.Proofs.Database.Decimals
import PerfLedger.Proofs.Time.Clock
import PerfLedger.Proofs.Store.TestTime
import PerfLedger.Proofs.Measure.Ranking
import PerfLedger.Proofs.Measure.Place
import PerfLedger.Proofs.Results.Extremes
import PerfLedger.Proofs.Decimal.Running
import PerfLedger.Proofs.Measure.BaseNumber
import PerfLedger.Proofs.Results.Average
import PerfLedger.Proofs.Json.String
import PerfLedger.Proofs.Json.Object
import PerfLedger.Proofs.Settings.Forms
import PerfLedger.Results.Draft
import PerfLedger.Proofs.Results.References
import PerfLedger.Proofs.Results.Assembly
import PerfLedger.Proofs.Store.Assembly
