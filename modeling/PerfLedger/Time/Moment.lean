import PerfLedger.Time.Calendar
import PerfLedger.Text.Digit

/-!
# Moments

A moment is a reading of a wall clock together with what is known of the clock's offset from UTC:
nothing, a zone that gives no offset, or a number of seconds to the east. Moments without an offset
count as UTC. The instant of a moment is the count of microseconds since the beginning of year 1,
less the offset; normalising a moment writes the same instant on a UTC clock, which is possible if
and only if that clock shows a year from 1 to 9999.
-/

namespace PerfLedger

/-- A reading of a wall clock. -/
structure WallTime where
  year : Nat
  month : Nat
  day : Nat
  hour : Nat
  minute : Nat
  second : Nat
  microsecond : Nat
  deriving DecidableEq, Inhabited

/-- What is known of a clock's offset: nothing, a zone without an offset, or seconds east of UTC. -/
inductive Zone where
  | unknown
  | silent
  | offset (seconds : Int)
  deriving DecidableEq, Inhabited

/-- A wall clock reading and its zone. -/
structure Moment where
  wall : WallTime
  zone : Zone
  deriving DecidableEq, Inhabited

namespace WallTime

/-- The microseconds since the beginning of year 1. -/
def micros (t : WallTime) : Nat :=
  let minutes := (Time.dayNumber t.year t.month t.day * 24 + t.hour) * 60 + t.minute
  (minutes * 60 + t.second) * 1000000 + t.microsecond

/-- The reading at a count of microseconds. -/
def ofMicros (n : Nat) : WallTime :=
  let (year, month, day) := Time.dateOfNumber (n / 86400000000)
  let k := n % 86400000000
  { year, month, day
    hour := k / 3600000000
    minute := k / 60000000 % 60
    second := k / 1000000 % 60
    microsecond := k % 1000000 }

/-- The count at the end of year 9999. -/
def microsLimit : Int := Time.dayLimit * 86400000000

/-- The reading that lies some seconds earlier, if it lies within the years 1 to 9999. -/
def before? (t : WallTime) (seconds : Int) : Option WallTime :=
  let n : Int := t.micros - seconds * 1000000
  if 0 ≤ n ∧ n < microsLimit then some (ofMicros n.toNat) else none

end WallTime

namespace Moment

/-- The offset of a moment, zero where none is known. -/
def offsetSeconds (m : Moment) : Int :=
  match m.zone with
  | .offset s => s
  | _ => 0

/-- A moment whose zone gives an offset. -/
def isAware (m : Moment) : Bool :=
  match m.zone with
  | .offset _ => true
  | _ => false

/-- The instant, in microseconds since the beginning of year 1 in UTC. -/
def instant (m : Moment) : Int :=
  m.wall.micros - m.offsetSeconds * 1000000

/-- The moment with the clock reading kept and the zone replaced by UTC. -/
def markUtc (m : Moment) : Moment :=
  { m with zone := .offset 0 }

/-- The same instant on a UTC clock, if that clock can show it. -/
def toUtc? (m : Moment) : Option Moment :=
  match m.zone with
  | .offset s => (m.wall.before? s).map fun t => ⟨t, .offset 0⟩
  | _ => some m.markUtc

/-- Equality of moments: of the instants if both have offsets, of the readings if neither has. -/
def same (a b : Moment) : Bool :=
  match a.isAware, b.isAware with
  | true, true => a.instant == b.instant
  | false, false => a.wall == b.wall
  | _, _ => false

/-! ## Text -/

/-- Two digits. -/
def two (n : Nat) : List Char :=
  Text.padded 2 n

/-- The offset as hours and minutes, with seconds if there are any. -/
def offsetText (seconds : Int) : List Char :=
  let n := seconds.natAbs
  let tail := if n % 60 = 0 then [] else ':' :: two (n % 60)
  (if seconds < 0 then '-' else '+') :: two (n / 3600) ++ ':' :: two (n / 60 % 60) ++ tail

/-- A date with a year of four digits. -/
def dateChars (year month day : Nat) : List Char :=
  Text.padded 4 year ++ '-' :: two month ++ '-' :: two day

/-- The international form: a year of four digits, the given separator, microseconds if there are
any, and the offset if there is one. -/
def isoText (separator : Char) (m : Moment) : String :=
  let t := m.wall
  let fraction := if t.microsecond = 0 then [] else '.' :: Text.padded 6 t.microsecond
  let zone :=
    match m.zone with
    | .offset s => offsetText s
    | _ => []
  String.ofList <| dateChars t.year t.month t.day ++
    separator :: two t.hour ++ ':' :: two t.minute ++ ':' :: two t.second ++ fraction ++ zone

end Moment

end PerfLedger
