import PerfLedger.Database.Basic
import PerfLedger.Results.Basic
import PerfLedger.Store.Fault

/-!
# Reading histories

The history of a test is made from the executions with its name, the latest first. The operations
of an execution are read in the order of their numbers; those without a label belong to the build
under test, the others to the baseline of their label. Baselines are sorted by label.

Rows are fetched all at once, first those of the executions and then, for each of them, those of its
operations; so a cell that cannot be fetched keeps all rows of its statement from being looked at.
-/

namespace PerfLedger

/-- What is fetched of a row of the table of executions. -/
structure FetchedExecution where
  id : Int
  time : Value
  version : Value

/-- What is fetched of a row of the table of operations. -/
structure FetchedOperation where
  version : Value
  time : Value
  memory : Value

/-- Fetches a row, column by column. -/
def ExecutionRow.fetch (e : ExecutionRow) : Except DatabaseFault FetchedExecution := do
  let time ← e.time.fetch "executionTime"
  let version ← e.version.fetch "targetVersion"
  return { id := e.id, time, version }

/-- Fetches a row, column by column. -/
def OperationRow.fetch (o : OperationRow) : Except DatabaseFault FetchedOperation := do
  let version ← o.version.fetch "version"
  let time ← o.time.fetch "executionTimeMs"
  let memory ← o.memory.fetch "heapUsageBytes"
  return { version, time, memory }

namespace FetchedOperation

/-- The operation that a row holds. -/
def toOperation (o : FetchedOperation) : Except FieldFault Operation := do
  let t ← o.time.toDecimalField "executionTimeMs"
  let m ← o.memory.toDecimalField "heapUsageBytes"
  return { time := ⟨t, MeasureUnit.base .duration⟩, memory := ⟨m, MeasureUnit.base .dataAmount⟩ }

/-- Results with the operation of a row added. -/
def addTo (r : Results) (o : FetchedOperation) : Except FieldFault Results := do
  let operation ← o.toOperation
  match o.version.toOptionalText with
  | none => return r.appendCurrent [operation]
  | some label => return r.appendTo label [operation]

end FetchedOperation

/-- Texts in ascending order, each once. -/
def sortTexts (ss : List String) : List String :=
  (ss.mergeSort fun s t => !decide (t < s)).eraseReps

namespace Database

/-- Baselines in ascending order of their labels. -/
def sortBaselines (bs : List (String × Baseline)) : List (String × Baseline) :=
  bs.mergeSort fun a b => !decide (b.1 < a.1)

/-- Fetches the executions with a name, by the first statement. -/
def fetchExecutions (db : Database) (a : Access) (name : Value) :
    Except DatabaseFault (List FetchedExecution) := do
  a.begin 0
  let wanted ← Cell.ofValue 1 name
  (db.executionsNamed wanted).mapM ExecutionRow.fetch

/-- Fetches the operations of an execution, by the statement with a number. -/
def fetchOperations (db : Database) (a : Access) (n : Nat) (id : Int) :
    Except DatabaseFault (List FetchedOperation) := do
  a.begin n
  (db.operationsOf id).mapM OperationRow.fetch

/-- The results that an execution stands for, under a name. The statement for its operations has a
number. -/
def resultsOf (db : Database) (a : Access) (name : Value) (n : Nat) (e : FetchedExecution) :
    Except StoreFault Results := do
  let version ← (e.version.toTextField "targetVersion").mapError .field
  let time ← e.time.toMomentField.mapError .time
  let rows ← (db.fetchOperations a n e.id).mapError .database
  let r ← (rows.foldlM FetchedOperation.addTo
    { name, version := .text version, time }).mapError .field
  return { r with baselines := sortBaselines r.baselines }

/-- The history of a test. -/
def history (db : Database) (a : Access) (name : Value) : Except StoreFault History := do
  let executions ← (db.fetchExecutions a name).mapError .database
  let results ← (executions.zipIdx 1).mapM fun (e, n) => db.resultsOf a name n e
  return { versions := sortTexts (results.flatMap fun r => r.baselines.map (·.1)), results }

/-- Fetches the names of all tests. -/
def fetchNames (db : Database) (a : Access) : Except DatabaseFault (List Value) := do
  a.begin 0
  db.names.mapM (Cell.fetch "testName")

/-- The texts of the names of all tests. -/
def testNames (db : Database) (a : Access) : Except StoreFault (List String) := do
  let names ← (db.fetchNames a).mapError .database
  (names.mapM (Value.toTextField "testName")).mapError .field

end Database

end PerfLedger
