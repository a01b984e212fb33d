import PerfLedger.Text.Digit
import PerfLedger.Time.Calendar
import PerfLedger.Value.Basic
import PerfLedger.Yaml.Cursor
import PerfLedger.Yaml.Fault

/-!
# Dates

A date is a year of four digits, a month and a day; a time of day may follow, with a fraction of a
second and an offset from UTC.
-/

namespace PerfLedger.Yaml

/-- A time of day with its fraction of a second and its offset as they are written. -/
structure StampTime where
  hour : Nat
  minute : Nat
  second : Nat
  fraction : List Char
  /-- The offset in seconds, if there is one. -/
  offset : Option Int

/-- The parts of a date as they are written. -/
structure Stamp where
  year : Nat
  month : List Char
  day : List Char
  time : Option StampTime := none

namespace Stamp

/-- A number of some digits at the front of a text, and the rest. -/
def digits? (least most : Nat) (cs : List Char) : Option (List Char × List Char) :=
  let ds := (cs.take most).takeWhile Char.isDigit
  if ds.length < least then none else some (ds, cs.drop ds.length)

/-- The text behind a character. -/
def after? (c : Char) : List Char → Option (List Char)
  | [] => none
  | d :: cs => if c = d then some cs else none

/-- The minutes of an offset, which may be missing. -/
def offsetMinutes? (cs : List Char) : Option Nat :=
  match cs with
  | [] => some 0
  | _ => do
    let (ds, cs) ← digits? 2 2 (← after? ':' cs)
    if cs = [] then some (Text.digitsValue ds) else none

/-- An offset, to the end of the text. -/
def offset? (cs : List Char) : Option (Option Int) :=
  match cs, cs.dropWhile isBlank with
  | [], _ => some none
  | _, ['Z'] => some (some 0)
  | _, sign :: cs =>
    if sign = '+' ∨ sign = '-' then do
      let (hours, cs) ← digits? 1 2 cs
      let minutes ← offsetMinutes? cs
      let seconds : Int := Text.digitsValue hours * 3600 + minutes * 60
      some (some (if sign = '-' then -seconds else seconds))
    else none
  | _, [] => none

/-- What stands between a date and a time: a letter, or blanks. -/
def afterGap? (cs : List Char) : Option (List Char) :=
  match cs with
  | [] => none
  | c :: rest =>
    if c = 'T' ∨ c = 't' then some rest
    else if isBlank c then some (rest.dropWhile isBlank)
    else none

/-- A time of day, to the end of the text. -/
def time? (cs : List Char) : Option StampTime := do
  let (hour, cs) ← digits? 1 2 (← afterGap? cs)
  let (minute, cs) ← digits? 2 2 (← after? ':' cs)
  let (second, cs) ← digits? 2 2 (← after? ':' cs)
  let (fraction, cs) : List Char × List Char :=
    match cs with
    | '.' :: cs => (cs.takeWhile Char.isDigit, cs.dropWhile Char.isDigit)
    | cs => ([], cs)
  let offset ← offset? cs
  some
    { hour := Text.digitsValue hour, minute := Text.digitsValue minute
      second := Text.digitsValue second, fraction, offset }

/-- The date that a text is. -/
def read? (cs : List Char) : Option Stamp := do
  let (year, cs) ← digits? 4 4 cs
  let (month, cs) ← digits? 1 2 (← after? '-' cs)
  let (day, cs) ← digits? 1 2 (← after? '-' cs)
  let stamp : Stamp := { year := Text.digitsValue year, month, day }
  match cs with
  | [] => some stamp
  | cs => (time? cs).map fun t => { stamp with time := some t }

/-- A date that is taken for one without a tag: without a time it needs two digits for month and
day. -/
def isImplicit (s : Stamp) : Bool :=
  s.time.isSome || (s.month.length == 2 && s.day.length == 2)

/-! ## Values -/

/-- The number of microseconds that digits of a fraction stand for. -/
def microseconds (fraction : List Char) : Nat :=
  let ds := fraction.take 6
  Text.digitsValue ds * Nat.pow 10 (6 - ds.length)

/-- A date that is in the calendar. -/
def checkDate (year month day : Nat) : Except Fault Unit :=
  if year = 0 then .error (.year year)
  else if month = 0 ∨ 12 < month then .error .month
  else if day = 0 ∨ Time.daysInMonth year month < day then .error .day
  else .ok ()

/-- A time that is on the clock. -/
def checkTime (t : StampTime) : Except Fault Unit :=
  if 23 < t.hour then .error .hour
  else if 59 < t.minute then .error .minute
  else if 59 < t.second then .error .second
  else .ok ()

/-- An offset that is less than a day. -/
def checkOffset (offset : Option Int) : Except Fault Zone :=
  match offset with
  | none => .ok .unknown
  | some s => if s ≤ -86400 ∨ 86400 ≤ s then .error (.offset s) else .ok (.offset s)

/-- The value of a date. -/
def toValue (s : Stamp) : Except Fault Value := do
  let month := Text.digitsValue s.month
  let day := Text.digitsValue s.day
  match s.time with
  | none =>
    checkDate s.year month day
    return .date s.year month day
  | some t =>
    let zone ← checkOffset t.offset
    checkDate s.year month day
    checkTime t
    let wall : WallTime :=
      { year := s.year, month, day, hour := t.hour, minute := t.minute, second := t.second
        microsecond := microseconds t.fraction }
    return .moment ⟨wall, zone⟩

end Stamp

end PerfLedger.Yaml
