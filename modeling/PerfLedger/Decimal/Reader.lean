import PerfLedger.Decimal.Basic
import PerfLedger.Text.Blank
import PerfLedger.Text.Digit

/-!
# Reading numerals

A numeral is a sign, digits with at most one point, and an exponent, or one of the names of the
special numbers in any case, `nan` and `snan` with a payload of digits. Blanks around it and
underscores anywhere are ignored, and digits of every script are understood. Reading never rounds:
a numeral whose exponent is beyond the range of numerals is refused.
-/

namespace PerfLedger.Decimal

open PerfLedger.Text

/-- The largest adjusted exponent of a numeral. -/
def numeralMax : Int := 999999999999999999

/-- The least exponent of a numeral. -/
def numeralMin : Int := -1999999999999999997

/-- The characters of a numeral in their plain form: trimmed, without underscores, digits in
ASCII. -/
def plainNumeral (s : String) : List Char :=
  ((trim s.toList).filter (· != '_')).map toAsciiDigit

/-- An optional sign, and what follows it; `true` for minus. -/
def splitSign : List Char → Bool × List Char
  | '-' :: cs => (true, cs)
  | '+' :: cs => (false, cs)
  | cs => (false, cs)

/-- The exponent part: nothing, or `e`, an optional sign and digits. -/
def readExponent? : List Char → Option Int
  | [] => some 0
  | c :: cs =>
    let (minus, ds) := splitSign cs
    if c.toLower = 'e' ∧ ds ≠ [] ∧ ds.all Char.isDigit then
      let n : Int := digitsValue ds
      some (if minus then -n else n)
    else none

/-- Digits with at most one point and an exponent: the coefficient and the exponent. -/
def readFinite? (cs : List Char) : Option (Nat × Int) :=
  let whole := cs.takeWhile Char.isDigit
  let rest := cs.dropWhile Char.isDigit
  let (fraction, tail) :=
    match rest with
    | '.' :: ds => (ds.takeWhile Char.isDigit, ds.dropWhile Char.isDigit)
    | ds => ([], ds)
  if whole = [] ∧ fraction = [] then none
  else (readExponent? tail).map fun e => (digitsValue (whole ++ fraction), e - fraction.length)

/-- The payload digits of a not-a-number. -/
def readPayload? (cs : List Char) : Option Nat :=
  if cs.all Char.isDigit then some (digitsValue cs) else none

/-- A special number by its name in lower case. -/
def readSpecial? (negative : Bool) (cs : List Char) : Option Decimal :=
  match cs with
  | ['i', 'n', 'f'] => some (.infinite negative)
  | ['i', 'n', 'f', 'i', 'n', 'i', 't', 'y'] => some (.infinite negative)
  | 'n' :: 'a' :: 'n' :: ds => (readPayload? ds).map (.nan negative false)
  | 's' :: 'n' :: 'a' :: 'n' :: ds => (readPayload? ds).map (.nan negative true)
  | _ => none

/-- A numeral whose exponent fits the range of numerals; a zero is measured by its exponent. -/
def inRange (n : Nat) (e : Int) : Bool :=
  let adjusted := if n = 0 then e else e + digitCount n - 1
  adjusted ≤ numeralMax && numeralMin ≤ e

/-- The decimal that a text denotes. -/
def parse (s : String) : Except Signal Decimal :=
  let (negative, cs) := splitSign (plainNumeral s)
  match readFinite? cs with
  | some (n, e) =>
    if inRange n e then .ok (.finite negative n e) else .error .invalidOperation
  | none =>
    match readSpecial? negative (cs.map Char.toLower) with
    | some d => .ok d
    | none => .error .conversionSyntax

end PerfLedger.Decimal
