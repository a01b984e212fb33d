import PerfLedger.Decimal.Basic

/-!
# Units of measurement

There are two kinds of amounts, of elapsed time and of data, and each has four units. A unit is a
whole multiple of the base unit of its kind: the millisecond, and the byte with binary multiples.
-/

namespace PerfLedger

/-- What an amount measures. -/
inductive MeasureKind where
  | duration
  | dataAmount
  deriving DecidableEq, Inhabited

/-- The name under which amounts of a kind are shown. -/
def MeasureKind.name : MeasureKind → String
  | .duration => "Duration"
  | .dataAmount => "DataAmount"

/-- A unit of time or of data. -/
inductive MeasureUnit where
  | millisecond
  | second
  | minute
  | hour
  | byte
  | kilobyte
  | megabyte
  | gigabyte
  deriving DecidableEq, Inhabited

namespace MeasureUnit

/-- The symbol of a unit. -/
def symbol : MeasureUnit → String
  | .millisecond => "ms"
  | .second => "s"
  | .minute => "min"
  | .hour => "h"
  | .byte => "B"
  | .kilobyte => "kB"
  | .megabyte => "MB"
  | .gigabyte => "GB"

/-- What a unit measures. -/
def kind : MeasureUnit → MeasureKind
  | .millisecond | .second | .minute | .hour => .duration
  | .byte | .kilobyte | .megabyte | .gigabyte => .dataAmount

/-- How many base units one unit is. -/
def factor : MeasureUnit → Nat
  | .millisecond => 1
  | .second => 1000
  | .minute => 60000
  | .hour => 3600000
  | .byte => 1
  | .kilobyte => 1024
  | .megabyte => 1024 * 1024
  | .gigabyte => 1024 * 1024 * 1024

/-- The unit in which the amounts of a kind are compared. -/
def base : MeasureKind → MeasureUnit
  | .duration => .millisecond
  | .dataAmount => .byte

/-- The units of a kind, the base unit first. -/
def ofKind : MeasureKind → List MeasureUnit
  | .duration => [.millisecond, .second, .minute, .hour]
  | .dataAmount => [.byte, .kilobyte, .megabyte, .gigabyte]

/-- The unit of a kind with a given symbol. -/
def find? (k : MeasureKind) (symbol : String) : Option MeasureUnit :=
  (ofKind k).find? fun u => u.symbol == symbol

theorem kind_base (k : MeasureKind) : (base k).kind = k := by
  cases k <;> rfl

theorem factor_pos (u : MeasureUnit) : 0 < u.factor := by
  cases u <;> decide

theorem factor_base (k : MeasureKind) : (base k).factor = 1 := by
  cases k <;> rfl

end MeasureUnit

end PerfLedger
