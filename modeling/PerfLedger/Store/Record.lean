import PerfLedger.Database.Basic
import PerfLedger.Results.Basic
import PerfLedger.Store.Fault

/-!
# Recording results

Results become one row of the table of executions, then one row for each operation: those of the
build under test without a label, then those of each baseline with its version as the label. All
operations are converted before the first of their rows is added, and rows that were added stay
when a later one is refused. So what is left behind by a failure is nothing, or the execution and
the operations up to the one that was refused.

The row of the execution is put in by one statement, and those of the operations by another one,
which is made ready even if there are none of them, and then run for each.
-/

namespace PerfLedger

/-- What an action on a database leaves and answers. -/
structure Reply (α : Type) where
  database : Database
  result : Except StoreFault α
  events : List StoreEvent := []

/-- An operation in the form in which it is stored. -/
structure StoredOperation where
  label : Value
  time : String
  memory : String
  deriving Inhabited

namespace StoredOperation

/-- The stored form of an operation: its measures in base units, in fixed form. -/
def ofOperation (label : Value) (o : Operation) : Except AmountFault StoredOperation := do
  let t ← o.time.inBaseUnits .duration
  let m ← o.memory.inBaseUnits .dataAmount
  return ⟨label, t.fixed, m.fixed⟩

/-- The stored forms of operations with a label. -/
def ofOperations (label : Value) (os : List Operation) :
    Except AmountFault (List StoredOperation) :=
  os.mapM (ofOperation label)

/-- The stored forms of the operations of baselines. -/
def ofBaselines : List (String × Baseline) → Except AmountFault (List StoredOperation)
  | [] => .ok []
  | e :: es => do
    let os ← ofOperations e.2.version e.2.operations
    let rest ← ofBaselines es
    return os ++ rest

/-- The stored forms of all operations of results. -/
def ofResults (r : Results) : Except AmountFault (List StoredOperation) := do
  let current ← ofOperations .null r.current
  let baselines ← ofBaselines r.baselines
  return current ++ baselines

end StoredOperation

namespace Database

/-- Adds an operation of an execution, whose number is the next one. -/
def addOperation (db : Database) (a : Access) (n : Nat) (id : Int) (o : StoredOperation) :
    Except DatabaseFault Database := do
  a.begin n
  let label ← Cell.ofValue 2 o.label
  let (next, _) ← db.insertOperation .null (.integer id) label (.text o.time) (.text o.memory)
  return next

/-- Adds operations of an execution in turn, from the run of their statement with a number on, up to
the first that is refused. -/
def addEach (db : Database) (a : Access) (n : Nat) (id : Int) :
    List StoredOperation → Database × Except DatabaseFault Unit
  | [] => (db, .ok ())
  | o :: os =>
    match db.addOperation a n id o with
    | .ok db => db.addEach a (n + 1) id os
    | .error f => (db, .error f)

/-- Adds operations of an execution, by one statement. -/
def addOperations (db : Database) (a : Access) (id : Int) (os : List StoredOperation) :
    Database × Except DatabaseFault Unit :=
  match a.begin 1 with
  | .ok _ => db.addEach a 2 id os
  | .error f => (db, .error f)

/-- Adds an execution, whose number is the next one. A database that cannot be written refuses it if
nothing else does. -/
def addExecution (db : Database) (a : Access) (time : String) (name version : Value) :
    Except DatabaseFault (Database × Int) := do
  a.begin 0
  let name ← Cell.ofValue 2 name
  let version ← Cell.ofValue 3 version
  let added ← db.insertExecution .null (.text time) name version
  if a.writable then return added else .error .readOnly

/-- Records results. -/
def record (db : Database) (a : Access) (r : Results) : Reply Unit :=
  match Time.stamp r.time with
  | .error f => { database := db, result := .error (.time f) }
  | .ok time =>
    match db.addExecution a time r.name r.version with
    | .error f => { database := db, result := .error (.database f) }
    | .ok (next, id) =>
      match StoredOperation.ofResults r with
      | .error f => { database := next, result := .error (.amount f) }
      | .ok os =>
        match next.addOperations a id os with
        | (last, .error f) => { database := last, result := .error (.database f) }
        | (last, .ok _) =>
          { database := last, result := .ok ()
            events := [.stored id r.name.display os.length] }

end Database

end PerfLedger
