import PerfLedger.Binary64.Printer
import PerfLedger.Decimal.Printer
import PerfLedger.Text.Quoted
import PerfLedger.Time.Moment

/-!
# Values

A value whose kind is known only when it is looked at: an argument that a caller hands in without
checking it, a document that was read, a parameter of a statement. The functions that take values
say which kinds they accept; the names of kinds and the texts of values appear in what they report.
-/

namespace PerfLedger

/-- A value of any kind. -/
inductive Value where
  | null
  | bool (b : Bool)
  | int (i : Int)
  | float (x : Binary64)
  | text (s : String)
  /-- A text with half a surrogate pair in it, which is no character. Its characters are not
  kept. -/
  | brokenText
  | bytes (bs : List UInt8)
  | decimal (d : Decimal)
  | moment (m : Moment)
  | date (year month day : Nat)
  | list (xs : List Value)
  | tuple (xs : List Value)
  | set (xs : List Value)
  | dict (entries : List (Value × Value))

namespace Value

instance : Inhabited Value := ⟨.null⟩

/-- The short name of a value's kind. -/
def kindName : Value → String
  | .null => "NoneType"
  | .bool _ => "bool"
  | .int _ => "int"
  | .float _ => "float"
  | .text _ | .brokenText => "str"
  | .bytes _ => "bytes"
  | .decimal _ => "Decimal"
  | .moment _ => "datetime"
  | .date .. => "date"
  | .list _ => "list"
  | .tuple _ => "tuple"
  | .set _ => "set"
  | .dict _ => "dict"

/-- The name of a value's kind with the place where the kind is defined, if it is not built in. -/
def qualifiedKind : Value → String
  | .decimal _ => "decimal.Decimal"
  | .moment _ => "datetime.datetime"
  | .date .. => "datetime.date"
  | v => v.kindName

/-- A value of a kind that changes, which cannot be a member of a set. -/
def isMutable : Value → Bool
  | .list _ | .set _ | .dict _ => true
  | _ => false

/-! ## Text -/

/-- Texts with commas between them. -/
def commaSeparated (xs : List String) : String :=
  ", ".intercalate xs

/-- A span of seconds as days and seconds, the seconds not negative. -/
def spanText (seconds : Int) : String :=
  let days := seconds / 86400
  let rest := seconds % 86400
  let parts := (if days = 0 then [] else ["days=" ++ toString days]) ++
    (if rest = 0 then [] else ["seconds=" ++ toString rest])
  "datetime.timedelta(" ++ commaSeparated parts ++ ")"

/-- The zone of a moment, as it is shown inside a moment. -/
def zoneText : Zone → List String
  | .unknown => []
  | .silent => ["tzinfo=None"]
  | .offset s =>
    if s = 0 then ["tzinfo=datetime.timezone.utc"]
    else ["tzinfo=datetime.timezone(" ++ spanText s ++ ")"]

/-- A moment by its parts; seconds and microseconds are left out when they and all after them are
zero. -/
def momentText (m : Moment) : String :=
  let t := m.wall
  let parts := [t.year, t.month, t.day, t.hour, t.minute] ++
    (if t.second = 0 ∧ t.microsecond = 0 then [] else [t.second]) ++
    (if t.microsecond = 0 then [] else [t.microsecond])
  "datetime.datetime(" ++ commaSeparated (parts.map toString ++ zoneText m.zone) ++ ")"

mutual

/-- A value as it is shown inside another one, or where its kind has to be seen. -/
def shown : Value → String
  | .null => "None"
  | .bool b => if b then "True" else "False"
  | .int i => toString i
  | .float x => x.toText
  | .text s => Text.quoted s
  | .brokenText => Text.quoted "\ufffd"
  | .bytes bs => Text.quotedBytes bs
  | .decimal d => "Decimal('" ++ d.toText ++ "')"
  | .moment m => momentText m
  | .date y m d => "datetime.date(" ++ commaSeparated ([y, m, d].map toString) ++ ")"
  | .list xs => "[" ++ commaSeparated (shownAll xs) ++ "]"
  | .tuple xs =>
    match shownAll xs with
    | [x] => "(" ++ x ++ ",)"
    | ys => "(" ++ commaSeparated ys ++ ")"
  | .set xs =>
    match shownAll xs with
    | [] => "set()"
    | ys => "\x7b" ++ commaSeparated ys ++ "\x7d"
  | .dict es => "\x7b" ++ commaSeparated (shownEntries es) ++ "\x7d"

/-- The members of a sequence as they are shown. -/
def shownAll : List Value → List String
  | [] => []
  | x :: xs => shown x :: shownAll xs

/-- The entries of a mapping as they are shown. -/
def shownEntries : List (Value × Value) → List String
  | [] => []
  | (k, v) :: es => (shown k ++ ": " ++ shown v) :: shownEntries es

end

/-- The text of a value on its own: texts, decimals and moments without a mark of their kind. -/
def display : Value → String
  | .text s => s
  | .decimal d => d.toText
  | .moment m => m.isoText ' '
  | .date y m d => String.ofList (Moment.dateChars y m d)
  | v => v.shown

end Value

end PerfLedger
