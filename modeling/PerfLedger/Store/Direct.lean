import PerfLedger.Store.Basic

/-!
# Rows put in directly

Besides the stores, rows can be put into the tables over a connection of their own, which is opened
for that one row. Values are taken as they are given, and bytes as the text that they are said to
be, so that a row may hold what no store would write.
-/

namespace PerfLedger

/-- What a statement puts into a column: a value that is handed over, or a text that is given by its
bytes. -/
inductive Operand where
  | value (v : Value)
  | textBytes (bs : List UInt8)

namespace Host

/-- The operands of a statement, of which the values are parameters and bound in turn. -/
def bindFrom (n : Nat) : List Operand → Except StoreFault (List Cell)
  | [] => .ok []
  | .value v :: os => do
    let c ← (Cell.ofValue n v).mapError .database
    let cs ← bindFrom (n + 1) os
    return c :: cs
  | .textBytes bs :: os => do
    let cs ← bindFrom n os
    return Cell.ofTextBytes bs :: cs

/-- Puts a row into the database at a path. The rule for the row gives its number. -/
def putRow (h : Host) (p : Path) (row : List Operand)
    (insert : Database → List Cell → Except DatabaseFault (Database × Int)) :
    Storage × Except StoreFault Int :=
  match h.connect p with
  | (disk, .error f) => (disk, .error f)
  | (disk, .ok c) =>
    match c.ensureTables disk with
    | .error f => (disk, .error (.database f))
    | .ok (disk, c, db) =>
      match bindFrom 1 row with
      | .error f => (disk, .error f)
      | .ok cells =>
        match insert db cells with
        | .error f => (disk, .error (.database f))
        | .ok (db, n) => ((c.write disk db).1, .ok n)

/-- Puts in an execution: number, time, name and version. -/
def putExecution (h : Host) (p : Path) (row : List Operand) : Storage × Except StoreFault Int :=
  h.putRow p row fun db cells =>
    let cell (n : Nat) : Cell := cells[n]?.getD .null
    db.insertExecution (cell 0) (cell 1) (cell 2) (cell 3)

/-- Puts in an operation: number, if one is given, and execution, version, time and memory. -/
def putOperation (h : Host) (p : Path) (number : Option Operand) (row : List Operand) :
    Storage × Except StoreFault Int :=
  h.putRow p (number.toList ++ row) fun db cells =>
    let cells := if number.isSome then cells else .null :: cells
    let cell (n : Nat) : Cell := cells[n]?.getD .null
    db.insertOperation (cell 0) (cell 1) (cell 2) (cell 3) (cell 4)

/-- The tables in the file at a path, if there is a file. -/
def tables? (h : Host) (p : Path) : Except DatabaseFault (Option Database) :=
  match (h.storage.fileId? p).bind h.storage.content? with
  | some content => content.tables.map some
  | none => .ok none

end Host

end PerfLedger
