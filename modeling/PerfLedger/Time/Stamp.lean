import PerfLedger.Time.Moment
import PerfLedger.Text.Blank
import PerfLedger.Text.Quoted

/-!
# Time stamps

The stored form of a moment is the reading of a UTC clock, `year-month-day hour:minute:second` and
six digits of microseconds. All parts but the year have a fixed width, so from year 1000 on the
order of the texts is the order of the instants.

Reading is more lenient than writing: a year of four digits, months and days and the parts of the
time with one or two, blanks of any number, and one to six digits of a fraction. Digits of other
scripts are understood where one of a full range of ten may stand, but not in the fraction.
-/

namespace PerfLedger.Time

open PerfLedger.Text

/-- Why a stamp cannot be written or read. -/
inductive Fault where
  /-- A UTC clock cannot show the instant. -/
  | outOfRange
  /-- The text does not have the form of a stamp. -/
  | mismatch (text : String)
  /-- The text goes on after a stamp. -/
  | remaining (rest : String)
  | yearRange (year : Nat)
  | dayRange
  | secondRange
  /-- The value, shown as text, is no text. -/
  | notText (shown : String)
  deriving DecidableEq

/-- What is reported. -/
def Fault.message : Fault → String
  | .outOfRange => "date value out of range"
  | .mismatch t =>
    "time data " ++ quoted t ++ " does not match format '%Y-%m-%d %H:%M:%S.%f'"
  | .remaining r => "unconverted data remains: " ++ r
  | .yearRange y => "year " ++ toString y ++ " is out of range"
  | .dayRange => "day is out of range for month"
  | .secondRange => "second must be in 0..59"
  | .notText s => "executionTime must be a timestamp string, got " ++ s

/-! ## Writing -/

/-- The text of a clock reading; the year is not padded. -/
def stampChars (t : WallTime) : List Char :=
  digits t.year ++ '-' :: padded 2 t.month ++ '-' :: padded 2 t.day ++ ' ' ::
    padded 2 t.hour ++ ':' :: padded 2 t.minute ++ ':' :: padded 2 t.second ++ '.' ::
    padded 6 t.microsecond

/-- The stamp of a moment: its reading on a UTC clock, which a moment without an offset is taken to
show already. -/
def stamp (m : Moment) : Except Fault String :=
  match m.zone with
  | .offset s =>
    match m.wall.before? s with
    | some t => .ok (String.ofList (stampChars t))
    | none => .error .outOfRange
  | _ => .ok (String.ofList (stampChars m.wall))

/-- The moment normalised to UTC. -/
def ensureUtc (m : Moment) : Except Fault Moment :=
  match m.toUtc? with
  | some u => .ok u
  | none => .error .outOfRange

/-! ## Reading -/

/-- One character, the value of which lies in a range if it is an ASCII digit. -/
def asciiIn? (low high : Nat) (c : Char) : Option Nat :=
  if c.isDigit ∧ low ≤ c.toNat - 0x30 ∧ c.toNat - 0x30 ≤ high then some (c.toNat - 0x30) else none

/-- How a part of two digits may be written: a first digit and the rule for the second. -/
abbrev PairRule := List (Char × (Char → Option Nat))

/-- A part in two characters that one of the rules allows. -/
def readPair? (rules : PairRule) (a b : Char) : Option Nat :=
  rules.findSome? fun r =>
    if a = r.1 then (r.2 b).map fun n => (if a = ' ' then 0 else 10 * (a.toNat - 0x30)) + n
    else none

/-- A part of two or one characters, in front of what `next` accepts. The longer form is tried
first. -/
def readPart? (pairs : PairRule) (single : Char → Option Nat) (next : Char → Bool) :
    List Char → Option (Nat × List Char)
  | a :: b :: c :: cs =>
    match readPair? pairs a b with
    | some n => if next c then some (n, c :: cs) else shorter a b (c :: cs)
    | none => shorter a b (c :: cs)
  | a :: b :: [] => shorter a b []
  | _ => none
where
  /-- The form with one character. -/
  shorter (a b : Char) (cs : List Char) : Option (Nat × List Char) :=
    match single a with
    | some n => if next b then some (n, b :: cs) else none
    | none => none

/-- The month: 10 to 12, 01 to 09, or 1 to 9. -/
def readMonth? : List Char → Option (Nat × List Char) :=
  readPart? [('1', asciiIn? 0 2), ('0', asciiIn? 1 9)] (asciiIn? 1 9) (· == '-')

/-- The day: 30 or 31, 10 to 29, 01 to 09, 1 to 9, or a space and 1 to 9. -/
def readDay? : List Char → Option (Nat × List Char) :=
  readPart? [('3', asciiIn? 0 1), ('1', digitValue?), ('2', digitValue?), ('0', asciiIn? 1 9),
    (' ', asciiIn? 1 9)] (asciiIn? 1 9) isBlank

/-- The hour: 20 to 23, 00 to 19, or one digit. -/
def readHour? : List Char → Option (Nat × List Char) :=
  readPart? [('2', asciiIn? 0 3), ('0', digitValue?), ('1', digitValue?)] digitValue? (· == ':')

/-- The rules for 00 to 59. -/
def sixtyRule : PairRule :=
  ['0', '1', '2', '3', '4', '5'].map fun c => (c, digitValue?)

/-- The minute: 00 to 59, or one digit. -/
def readMinute? : List Char → Option (Nat × List Char) :=
  readPart? sixtyRule digitValue? (· == ':')

/-- The second: 60 or 61, 00 to 59, or one digit. -/
def readSecond? : List Char → Option (Nat × List Char) :=
  readPart? (('6', asciiIn? 0 1) :: sixtyRule) digitValue? (· == '.')

/-- The four digits of the year and the hyphen. -/
def readYear? : List Char → Option (Nat × List Char)
  | a :: b :: c :: d :: '-' :: cs => do
    let w ← digitValue? a
    let x ← digitValue? b
    let y ← digitValue? c
    let z ← digitValue? d
    some (1000 * w + 100 * x + 10 * y + z, cs)
  | _ => none

/-- One to six digits of a fraction of a second, as microseconds. -/
def readFraction? (cs : List Char) : Option (Nat × List Char) :=
  let ds := (cs.take 6).takeWhile Char.isDigit
  if ds = [] then none
  else some (digitsValue ds * Nat.pow 10 (6 - ds.length), cs.drop ds.length)

/-- The parts of a stamp and the text behind it, by form alone. -/
def readForm? (cs : List Char) : Option (WallTime × List Char) := do
  let (year, cs) ← readYear? cs
  let (month, cs) ← readMonth? cs
  let (day, cs) ← readDay? (cs.drop 1)
  let (hour, cs) ← readHour? (cs.dropWhile isBlank)
  let (minute, cs) ← readMinute? (cs.drop 1)
  let (second, cs) ← readSecond? (cs.drop 1)
  let (microsecond, cs) ← readFraction? (cs.drop 1)
  some ({ year, month, day, hour, minute, second, microsecond }, cs)

/-- The parts of a stamp if they name a date and a second of a day. -/
def checked (t : WallTime) : Except Fault WallTime :=
  if t.year = 0 then .error (.yearRange 0)
  else if daysInMonth t.year t.month < t.day then .error .dayRange
  else if 59 < t.second then .error .secondRange
  else .ok t

/-- The moment, in UTC, that a stamp denotes. -/
def parseStamp (s : String) : Except Fault Moment :=
  match readForm? s.toList with
  | none => .error (.mismatch s)
  | some (t, rest) =>
    if rest ≠ [] then .error (.remaining (String.ofList rest))
    else (checked t).map fun t => ⟨t, .offset 0⟩

end PerfLedger.Time
