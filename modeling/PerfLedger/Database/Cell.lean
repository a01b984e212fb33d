import PerfLedger.Binary64.Printer
import PerfLedger.Database.Fault
import PerfLedger.Database.Numeral
import PerfLedger.Text.Utf8
import PerfLedger.Value.Basic

/-!
# Cells

A cell of a table holds nothing, a 64-bit integer, a binary64 number, a text or bytes. A text is
kept as its bytes, and these need not be UTF-8; such a cell can be put in, compared and ordered, but
not fetched. What is put into a cell is first adapted to the column: a text column turns numbers
into texts, a numeric one turns numerals and whole numbers into integers where it can. Cells of all
kinds have one order.
-/

namespace PerfLedger

/-- The content of one column of one row. -/
inductive Cell where
  | null
  | integer (i : Int)
  | real (x : Binary64)
  | text (s : String)
  /-- A text whose bytes are no UTF-8. -/
  | garbled (g : Text.Garbled)
  | blob (bs : List UInt8)
  deriving DecidableEq, Inhabited

namespace Cell

/-- The least integer that is too large for a cell, which has 64 bits. -/
def limit : Int := 9223372036854775808

/-- The integers that fit a cell. -/
def fits (i : Int) : Bool :=
  -limit ≤ i && i < limit

/-- The cell of a value that is handed over as the parameter with the given number. -/
def ofValue (parameter : Nat) : Value → Except DatabaseFault Cell
  | .null => .ok .null
  | .bool b => .ok (.integer b.toNat)
  | .int i => if fits i then .ok (.integer i) else .error .integerTooLarge
  | .float .nan => .ok .null
  | .float x => .ok (.real x)
  | .text s => .ok (.text s)
  | .bytes bs => .ok (.blob bs)
  | .moment m => .ok (.text (m.isoText ' '))
  | .date y m d => .ok (.text (Value.date y m d).display)
  | .brokenText => .error .notUnicode
  | v => .error (.unsupported parameter v.qualifiedKind)

/-- The cell of a text that is given by its bytes. -/
def ofTextBytes (bs : List UInt8) : Cell :=
  match Text.readUtf8 bs with
  | .ok s => .text s
  | .error g => .garbled g

/-- The value of a cell that is fetched under the name of its column. -/
def fetch (column : String) : Cell → Except DatabaseFault Value
  | .null => .ok .null
  | .integer i => .ok (.int i)
  | .real x => .ok (.float x)
  | .text s => .ok (.text s)
  | .garbled g => .error (.undecodable column g.bytes)
  | .blob bs => .ok (.bytes bs)

/-! ## Columns -/

/-- The cell as a text column keeps it. -/
def inTextColumn : Cell → Cell
  | .integer i => .text (toString i)
  | .real x => .text x.toRoundedText
  | c => c

/-- A number as an integer, if it is one and lies strictly between the ends of the range. -/
def ofWhole (x : Binary64) : Cell :=
  match x.toInt? with
  | some i => if -limit < i ∧ i < limit - 1 then .integer i else .real x
  | none => .real x

/-- A numeral as a number: an integer if it is written as one and fits, or if its value is whole. -/
def ofNumeral (n : Database.Numeral) : Cell :=
  if n.isInteger ∧ fits n.toInt then .integer n.toInt else ofWhole n.toBinary64

/-- The cell as a numeric column keeps it. -/
def inNumericColumn : Cell → Cell
  | .real x => ofWhole x
  | .text s =>
    match Database.readNumeral? s.toList with
    | some n => ofNumeral n
    | none => .text s
  | c => c

/-! ## Order -/

/-- The place of a kind of cell in the order. -/
def rank : Cell → Nat
  | .null => 0
  | .integer _ | .real _ => 1
  | .text _ | .garbled _ => 2
  | .blob _ => 3

/-- The order of an integer and a binary64 number. -/
def compareMixed (i : Int) (x : Binary64) : Ordering :=
  match x with
  | .infinite s => if s then .gt else .lt
  | .nan => .gt
  | x =>
    match x.toQuotient? with
    | some (n, d) => compare (i * d) n
    | none => .gt

/-- The order of cells: nothing, then numbers by value, then texts by code point, which is the order
of their bytes, then bytes. -/
def order : Cell → Cell → Ordering
  | .integer i, .integer j => compare i j
  | .integer i, .real x => compareMixed i x
  | .real x, .integer i => (compareMixed i x).swap
  | .real x, .real y => (x.compare? y).getD .eq
  | .text s, .text t => compare s t
  | .text s, .garbled g => compare (Text.encodeUtf8 s.toList) g.bytes
  | .garbled g, .text s => compare g.bytes (Text.encodeUtf8 s.toList)
  | .garbled g, .garbled g' => compare g.bytes g'.bytes
  | .blob s, .blob t => compare s t
  | c, d => compare c.rank d.rank

end Cell

end PerfLedger
