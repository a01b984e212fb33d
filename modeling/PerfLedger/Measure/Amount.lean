import PerfLedger.Decimal.Arith
import PerfLedger.Decimal.Order
import PerfLedger.Decimal.Reader
import PerfLedger.Measure.Unit
import PerfLedger.Value.Basic

/-!
# Amounts

An amount is a decimal number of some unit, and its kind is that of the unit. Amounts of one kind
are compared by their values in the base unit, whatever units they are written in. The right
operand of a sum or difference is converted to the unit of the left one, which the result keeps.

The base value and a conversion are rounded to the working precision, so that they may overflow;
an amount in its own unit is not converted and keeps all its digits.
-/

namespace PerfLedger

/-- Why an operation on amounts has no answer. -/
inductive AmountFault where
  /-- The decimal arithmetic signals. -/
  | signal (s : Decimal.Signal)
  /-- A truth value is no number. -/
  | boolean
  /-- A value of this kind is no number. -/
  | notNumeric (kind : String)
  /-- No unit of the kind has this symbol. -/
  | unknownUnit (symbol : String) (kind : MeasureKind)
  /-- A value of this kind cannot be looked up or be a member of a set. -/
  | unhashable (kind : String)
  /-- A signalling not-a-number cannot be a member of a set. -/
  | unhashableNaN
  /-- The operands of a sum or difference are of different kinds. -/
  | notCombinable (left right : String)
  /-- The operands have no order; the operator is given with their kinds. -/
  | notComparable (operator left right : String)
  /-- Moments with and without an offset have no order. -/
  | mixedMoments
  /-- Nothing has no least or greatest member. -/
  | emptySequence (name : String)
  /-- An amount of this kind has no such base value. -/
  | wrongMeasure (kind : MeasureKind) (conversion : String)
  deriving DecidableEq

namespace AmountFault

/-- What is reported of a decimal signal: its name is shown by the class that stands for it. -/
def signalText : Decimal.Signal → String
  | .conversionSyntax => "[<class 'decimal.ConversionSyntax'>]"
  | .invalidOperation => "[<class 'decimal.InvalidOperation'>]"
  | .divisionUndefined => "[<class 'decimal.DivisionUndefined'>]"
  | .divisionByZero => "[<class 'decimal.DivisionByZero'>]"
  | .overflow => "[<class 'decimal.Overflow'>]"

/-- What is reported. -/
def message : AmountFault → String
  | .signal s => signalText s
  | .boolean => "amount value must be numeric, not bool"
  | .notNumeric k => "amount value must be numeric, got " ++ k
  | .unknownUnit u k => "Unknown units '" ++ u ++ "' for " ++ k.name
  | .unhashable k => "unhashable type: '" ++ k ++ "'"
  | .unhashableNaN => "Cannot hash a signaling NaN value"
  | .notCombinable l r => "Cannot combine " ++ l ++ " with " ++ r
  | .notComparable o l r =>
    "'" ++ o ++ "' not supported between instances of '" ++ l ++ "' and '" ++ r ++ "'"
  | .mixedMoments => "can't compare offset-naive and offset-aware datetimes"
  | .emptySequence n => n ++ "() arg is an empty sequence"
  | .wrongMeasure k c => "'" ++ k.name ++ "' object has no attribute '" ++ c ++ "'"

end AmountFault

/-- An amount of time or of data. -/
structure Amount where
  value : Decimal
  unit : MeasureUnit
  deriving DecidableEq, Inhabited

/-- A decimal operation as a step of an operation on amounts. -/
def signaling (x : Except Decimal.Signal α) : Except AmountFault α :=
  x.mapError .signal

/-- The decimal of a value that is a number or a numeral. A binary number is read through its
shortest text. -/
def Value.toDecimal : Value → Except AmountFault Decimal
  | .bool _ => .error .boolean
  | .decimal d => .ok d
  | .int i => .ok (Decimal.ofInt i)
  | .float x => signaling (Decimal.parse x.toText)
  | .text s => signaling (Decimal.parse s)
  | v => .error (.notNumeric v.kindName)

namespace Amount

/-- What the amount measures. -/
def kind (a : Amount) : MeasureKind :=
  a.unit.kind

/-- Nothing of a kind, in the base unit. -/
def zero (k : MeasureKind) : Amount :=
  ⟨0, MeasureUnit.base k⟩

/-- The unit of a kind that a value names. -/
def unitNamed (k : MeasureKind) (name : Value) : Except AmountFault MeasureUnit :=
  if name.isMutable then .error (.unhashable name.kindName)
  else
    match name with
    | .text s =>
      match MeasureUnit.find? k s with
      | some u => .ok u
      | none => .error (.unknownUnit s k)
    | .decimal (.nan _ true _) => .error .unhashableNaN
    | v => .error (.unknownUnit v.display k)

/-- The amount of a kind with the given number and unit. The unit is checked first. -/
def of (k : MeasureKind) (value unit : Value) : Except AmountFault Amount := do
  let u ← unitNamed k unit
  let d ← value.toDecimal
  return ⟨d, u⟩

/-- The amount of a number of base units. -/
def inBase (k : MeasureKind) (value : Value) : Except AmountFault Amount := do
  let d ← value.toDecimal
  return ⟨d, MeasureUnit.base k⟩

/-- The value in the base unit, rounded. -/
def baseValue (a : Amount) : Except Decimal.Signal Decimal :=
  a.value.mul (Decimal.ofNat a.unit.factor)

/-- The amount in another unit of its kind, rounded; in its own unit it stays as it is. -/
def toUnit (a : Amount) (u : MeasureUnit) : Except Decimal.Signal Amount :=
  if u = a.unit then .ok a
  else do
    let x ← a.baseValue
    let q ← x.div (Decimal.ofNat u.factor)
    return ⟨q, u⟩

/-- The amount in the unit that a value names. -/
def convert (a : Amount) (unit : Value) : Except AmountFault Amount := do
  let u ← unitNamed a.kind unit
  signaling (a.toUnit u)

/-- The name of the conversion to the base unit of a kind. -/
def baseConversion : MeasureKind → String
  | .duration => "to_millis"
  | .dataAmount => "to_bytes"

/-- The number of base units of a kind that the amount has to be of. -/
def inBaseUnits (a : Amount) (k : MeasureKind) : Except AmountFault Decimal :=
  if a.kind = k then (signaling (a.toUnit (MeasureUnit.base k))).map (·.value)
  else .error (.wrongMeasure a.kind (baseConversion k))

/-! ## Arithmetic -/

/-- A decimal operation on the values of two amounts of one kind, in the unit of the first. -/
def combine (op : Decimal → Decimal → Except Decimal.Signal Decimal) (a b : Amount) :
    Except AmountFault Amount :=
  if a.kind = b.kind then signaling do
    let c ← b.toUnit a.unit
    let v ← op a.value c.value
    return ⟨v, a.unit⟩
  else .error (.notCombinable a.kind.name b.kind.name)

/-- The sum, in the unit of the left summand. -/
def add (a b : Amount) : Except AmountFault Amount :=
  combine Decimal.add a b

/-- The difference, in the unit of the left operand. -/
def sub (a b : Amount) : Except AmountFault Amount :=
  combine Decimal.sub a b

/-- The amount divided by a decimal. -/
def divBy (a : Amount) (d : Decimal) : Except AmountFault Amount := do
  let v ← signaling (a.value.div d)
  return ⟨v, a.unit⟩

/-- The amount divided by a number. -/
def div (a : Amount) (divisor : Value) : Except AmountFault Amount := do
  let d ← divisor.toDecimal
  a.divBy d

/-- The absolute value. -/
def abs (a : Amount) : Except AmountFault Amount := do
  let v ← signaling a.value.abs
  return ⟨v, a.unit⟩

/-! ## Text -/

/-- The amount with its kind and all its digits. -/
def shown (a : Amount) : String :=
  a.kind.name ++ "(" ++ a.value.toText ++ ", " ++ Text.quoted a.unit.symbol ++ ")"

/-- The amount as a number in fixed form and the symbol of its unit. -/
def display (a : Amount) : String :=
  a.value.fixed ++ " " ++ a.unit.symbol

end Amount

end PerfLedger
