import PerfLedger.Database.Basic

/-!
# The schema

The columns of the two tables, with the types that they are declared with. A type may be any text.
What a column does to the cells that are put into it, its *affinity*, depends on the words that
occur in this text, so that a column of type `DECIMAL TEXT` is a text column.
-/

namespace PerfLedger

/-- What a column makes of cells where it can. -/
inductive Affinity where
  | integer
  | text
  | blob
  | real
  | numeric
  deriving DecidableEq

namespace Affinity

/-- Whether a word stands anywhere in a text. -/
def occurs (word : List Char) : List Char → Bool
  | [] => word.isEmpty
  | c :: cs => word.isPrefixOf (c :: cs) || occurs word cs

/-- The affinity that a declared type gives, in whatever case it is written. Of several words, the
one that is looked for first decides. -/
def ofType (type : String) : Affinity :=
  let cs := type.toList.map Char.toUpper
  let has (word : String) := occurs word.toList cs
  if has "INT" then .integer
  else if has "CHAR" || has "CLOB" || has "TEXT" then .text
  else if has "BLOB" || cs.isEmpty then .blob
  else if has "REAL" || has "FLOA" || has "DOUB" then .real
  else .numeric

end Affinity

/-- The cell as a column of an affinity keeps it. -/
def Cell.adapt : Affinity → Cell → Cell
  | .integer, c => c.inNumericColumn
  | .numeric, c => c.inNumericColumn
  | .text, c => c.inTextColumn
  | .real, .integer i => .real (Binary64.ofInt i)
  | .real, .text s =>
    match Database.readNumeral? s.toList with
    | some n => .real n.toBinary64
    | none => .text s
  | .real, c => c
  | .blob, c => c

/-- A column, as it is declared. -/
structure Column where
  name : String
  type : String

/-- The cell as the column keeps it. -/
def Column.keep (k : Column) (c : Cell) : Cell :=
  c.adapt (Affinity.ofType k.type)

namespace Database

/-- The columns of the table of executions. -/
def executionColumns : List Column :=
  [⟨"id", "INTEGER"⟩, ⟨"executionTime", "TIMESTAMP"⟩, ⟨"testName", "VARCHAR"⟩,
   ⟨"targetVersion", "VARCHAR"⟩]

/-- The columns of the table of operations. -/
def operationColumns : List Column :=
  [⟨"testExecution", "INTEGER"⟩, ⟨"version", "VARCHAR"⟩, ⟨"executionTimeMs", "DECIMAL TEXT"⟩,
   ⟨"heapUsageBytes", "DECIMAL TEXT"⟩]

end Database

/-- The cells of a row in the order of the columns. -/
def ExecutionRow.cells (r : ExecutionRow) : List Cell :=
  [.integer r.id, r.time, r.name, r.version]

/-- The cells of a row in the order of the columns. -/
def OperationRow.cells (r : OperationRow) : List Cell :=
  [.integer r.execution, r.version, r.time, r.memory]

end PerfLedger
