import PerfLedger.Decimal.Reader
import PerfLedger.Measure.Amount
import PerfLedger.Time.Stamp
import PerfLedger.Value.Integer

/-!
# Fields

A field is a value with a name, as it is found in a row. Each reader says which kinds of values the
field may have; what it reports names the field.
-/

namespace PerfLedger

/-- Why a field cannot be read. -/
inductive FieldFault where
  | missing (field : String)
  | notNumeric (field : String)
  | notInteger (field : String)
  | signal (s : Decimal.Signal)
  | literal (f : Integer.Fault)
  deriving DecidableEq

/-- What is reported. -/
def FieldFault.message : FieldFault → String
  | .missing f => f ++ " is required"
  | .notNumeric f => f ++ " must be numeric"
  | .notInteger f => f ++ " must be an int"
  | .signal s => AmountFault.signalText s
  | .literal f => f.message

namespace Value

/-- A decimal field: an integer, a decimal, a binary number through its shortest text, or a
numeral. -/
def toDecimalField (field : String) : Value → Except FieldFault Decimal
  | .null => .error (.missing field)
  | .int i => .ok (Decimal.ofInt i)
  | .decimal d => .ok d
  | .float x => (Decimal.parse x.toText).mapError .signal
  | .text s => (Decimal.parse s).mapError .signal
  | _ => .error (.notNumeric field)

/-- A text field; other values give their text. -/
def toTextField (field : String) : Value → Except FieldFault String
  | .null => .error (.missing field)
  | v => .ok v.display

/-- An optional text field. -/
def toOptionalText : Value → Option String
  | .null => none
  | v => some v.display

/-- An integer field: an integer, or a text that is an integer literal. -/
def toIntField (field : String) : Value → Except FieldFault Int
  | .null => .error (.missing field)
  | .int i => .ok i
  | .text s => (Integer.parse s).mapError .literal
  | _ => .error (.notInteger field)

/-- A time stamp field: a stamp, or a moment, of which the clock reading is taken as UTC. -/
def toMomentField : Value → Except Time.Fault Moment
  | .text s => Time.parseStamp s
  | .moment m => .ok m.markUtc
  | v => .error (.notText v.shown)

end Value

end PerfLedger
