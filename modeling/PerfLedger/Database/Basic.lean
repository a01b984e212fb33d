import PerfLedger.Database.Cell

/-!
# The database

Two tables: one row for each execution of a test, and one row for each operation, which refers to
its execution. Rows are only ever added, and a row that is refused leaves the tables as they were.

The rows of both tables are numbered. A number can be given with the row, and the numbers tell in
which order operations are read. An execution without one gets one more than the largest number ever
present, an operation one more than the largest that is there. If that one is taken by the largest
number of all, there may still be free ones, which the database would try at random; here it finds
none.

The number of an execution is an integer, and the number that an operation refers to is the number
of an execution, so these two columns are integers here and not cells.
-/

namespace PerfLedger

/-- A row of the table of executions. -/
structure ExecutionRow where
  id : Int
  time : Cell
  name : Cell
  version : Cell
  deriving DecidableEq, Inhabited

/-- A row of the table of operations. Its number is not in a column of its own. -/
structure OperationRow where
  number : Int
  execution : Int
  version : Cell
  time : Cell
  memory : Cell
  deriving DecidableEq, Inhabited

/-- The two tables in order of insertion, and the largest number ever given to an execution. -/
structure Database where
  executions : List ExecutionRow := []
  operations : List OperationRow := []
  lastId : Int := 0
  deriving DecidableEq, Inhabited

namespace Database

/-- The name of the table of executions. -/
def executionTable : String := "testExecution"

/-- The name of the table of operations. -/
def operationTable : String := "testOperation"

/-- The largest number for a row. -/
def idLimit : Int := Cell.limit - 1

/-- Whether there is an execution with a number. -/
def hasExecution (db : Database) (id : Int) : Bool :=
  db.executions.any fun e => e.id == id

/-- The number for a new row: the given one, or the next one. -/
def numberAfter (last : Int) (given : Cell) : Except DatabaseFault Int :=
  match given.inNumericColumn with
  | .null => if last < idLimit then .ok (last + 1) else .error .full
  | .integer i => .ok i
  | _ => .error .mismatch

/-- The number for a new execution. -/
def newId (db : Database) (id : Cell) : Except DatabaseFault Int :=
  numberAfter db.lastId id

/-- The largest number of an operation, or zero if there is none. -/
def lastNumber (db : Database) : Int :=
  (db.operations.map (·.number)).max?.getD 0

/-- Whether there is an operation with a number. -/
def hasOperation (db : Database) (number : Int) : Bool :=
  db.operations.any fun o => o.number == number

/-- A cell that has to hold something. -/
def require (table column : String) (c : Cell) : Except DatabaseFault Unit :=
  if c = .null then .error (.notNull table column) else .ok ()

/-- The database with one more execution, and its number. -/
def insertExecution (db : Database) (id time name version : Cell) :
    Except DatabaseFault (Database × Int) := do
  let n ← db.newId id
  require executionTable "executionTime" time
  require executionTable "testName" name
  require executionTable "targetVersion" version
  if db.hasExecution n then .error (.unique executionTable "id")
  else
    let row : ExecutionRow := ⟨n, time.inNumericColumn, name.inTextColumn, version.inTextColumn⟩
    .ok ({ db with executions := db.executions ++ [row], lastId := max db.lastId n }, n)

/-- The number of the execution that a cell refers to. -/
def reference (db : Database) (c : Cell) : Except DatabaseFault Int :=
  match c.inNumericColumn with
  | .integer i => if db.hasExecution i then .ok i else .error .foreignKey
  | _ => .error .foreignKey

/-- The database with one more operation, and its number. -/
def insertOperation (db : Database) (number execution version time memory : Cell) :
    Except DatabaseFault (Database × Int) := do
  let n ← numberAfter db.lastNumber number
  require operationTable "testExecution" execution
  require operationTable "executionTimeMs" time
  require operationTable "heapUsageBytes" memory
  if db.hasOperation n then .error (.unique operationTable "rowid")
  else
    let id ← db.reference execution
    let row : OperationRow :=
      ⟨n, id, version.inTextColumn, time.inTextColumn, memory.inTextColumn⟩
    .ok ({ db with operations := db.operations ++ [row] }, n)

/-! ## Queries -/

/-- The first of each run of equal members. -/
def dropRepeats : List Cell → List Cell
  | [] => []
  | [c] => [c]
  | c :: d :: cs => if c = d then dropRepeats (d :: cs) else c :: dropRepeats (d :: cs)

/-- The names of all executions in ascending order, each once. -/
def names (db : Database) : List Cell :=
  dropRepeats ((db.executions.map (·.name)).mergeSort fun c d => (c.order d).isLE)

/-- The order of executions by time, then by number. -/
def orderExecutions (a b : ExecutionRow) : Ordering :=
  (a.time.order b.time).then (compare a.id b.id)

/-- The executions whose name is what a cell holds, the latest first. -/
def executionsNamed (db : Database) (name : Cell) : List ExecutionRow :=
  let wanted := name.inTextColumn
  (db.executions.filter fun e => wanted != .null && e.name == wanted).mergeSort
    fun a b => (orderExecutions b a).isLE

/-- The operations of an execution, by number. -/
def operationsOf (db : Database) (id : Int) : List OperationRow :=
  (db.operations.filter fun o => o.execution == id).mergeSort
    fun o p => decide (o.number ≤ p.number)

/-- The executions by number. -/
def executionsById (db : Database) : List ExecutionRow :=
  db.executions.mergeSort fun a b => decide (a.id ≤ b.id)

/-- The operations by number. -/
def operationsByNumber (db : Database) : List OperationRow :=
  db.operations.mergeSort fun o p => decide (o.number ≤ p.number)

end Database

/-! ## Access -/

/-- How a database is accessed: whether it can be written, and the statement that fails before it
does anything, if there is one, with the words it fails in. The statements are counted. -/
structure Access where
  writable : Bool := true
  failing : Option (Nat × String) := none
  deriving DecidableEq, Inhabited

/-- Begins the statement with a number. -/
def Access.begin (a : Access) (n : Nat) : Except DatabaseFault Unit :=
  match a.failing with
  | some (k, m) => if k = n then .error (.system m) else .ok ()
  | none => .ok ()

end PerfLedger
