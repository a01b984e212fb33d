import PerfLedger.Database.Fault
import PerfLedger.Files.Disk
import PerfLedger.Value.Field

/-!
# What a store reports

Each operation of a store has one error of its own, which names the path of the store and carries
the fault that caused it. The log of a store consists of events.
-/

namespace PerfLedger

/-- What went wrong below an operation of a store. -/
inductive StoreFault where
  | file (f : FileFault)
  | database (f : DatabaseFault)
  | time (f : Time.Fault)
  | amount (f : AmountFault)
  | field (f : FieldFault)
  /-- The connection that is held cannot run statements. -/
  | noStatements
  deriving DecidableEq

/-- What is reported of the cause. -/
def StoreFault.message : StoreFault → String
  | .file f => f.message
  | .database f => f.message
  | .time f => f.message
  | .amount f => f.message
  | .field f => f.message
  | .noStatements => "'_FailingConnection' object has no attribute 'executescript'"

/-- The errors of a store. -/
inductive StoreError where
  | report (path : Path) (cause : StoreFault)
  | names (path : Path) (cause : StoreFault)
  | history (path : Path) (cause : StoreFault)
  | close (path : Path) (cause : StoreFault)
  /-- The work for which the store was opened failed by itself. -/
  | body (reason : String)
  deriving DecidableEq

namespace StoreError

/-- What is reported. -/
def message : StoreError → String
  | .report p _ => "Could not open results datastore '" ++ p.toText ++ "'."
  | .names p _ => "Could not load test history from datastore '" ++ p.toText ++ "'."
  | .history p _ => "Could not load results from datastore '" ++ p.toText ++ "'."
  | .close p _ => "Could not close datastore '" ++ p.toText ++ "'."
  | .body r => r

/-- The fault that caused the error. -/
def cause? : StoreError → Option StoreFault
  | .report _ c | .names _ c | .history _ c | .close _ c => some c
  | .body _ => none

end StoreError

/-- What a store logs. -/
inductive StoreEvent where
  | opened (path : Path)
  | discarded (path : Path)
  | closed (path : Path)
  /-- An execution was stored, with its number, the name of the test, and so many operations. -/
  | stored (id : Int) (name : String) (count : Nat)
  deriving DecidableEq

namespace StoreEvent

/-- A warning tells of a failure; the other events are for debugging. -/
def isWarning : StoreEvent → Bool
  | .discarded _ => true
  | _ => false

/-- The text of an event. -/
def message : StoreEvent → String
  | .opened p => "Opened results datastore " ++ p.toText
  | .discarded p => "Could not create schema in " ++ p.toText ++ "; discarding connection"
  | .closed p => "Closed results datastore " ++ p.toText
  | .stored id name n =>
    "Stored execution " ++ toString id ++ " of '" ++ name ++ "' with " ++ toString n ++
      " operations"

end StoreEvent

end PerfLedger
