import PerfLedger.Decimal.Basic
import PerfLedger.Text.Digit

/-!
# Writing numerals

Two forms. The *plain* form keeps sign, coefficient and exponent readable from the text: it is
positional while the exponent is not positive and at most five zeros follow the point, and
scientific otherwise. The *fixed* form is always positional.
-/

namespace PerfLedger.Decimal

open PerfLedger.Text

/-- The sign, which is written for minus only. -/
def signChars (negative : Bool) : List Char :=
  if negative then ['-'] else []

/-- Digits with the last `places` of them behind a point, filled with zeros so that one digit
precedes it. No point is written for no places. -/
def pointed (ds : List Char) (places : Nat) : List Char :=
  if places = 0 then ds
  else
    let ds := List.replicate (places + 1 - ds.length) '0' ++ ds
    ds.take (ds.length - places) ++ '.' :: ds.drop (ds.length - places)

/-- Digits with a point behind the first one. -/
def mantissa : List Char → List Char
  | [] => []
  | [d] => [d]
  | d :: ds => d :: '.' :: ds

/-- An exponent with its sign, which is always written. -/
def exponentChars (e : Int) : List Char :=
  (if e < 0 then '-' else '+') :: digits e.natAbs

/-- The names of the numbers that have no digits. -/
def specialChars : Decimal → List Char
  | .infinite s => signChars s ++ "Infinity".toList
  | .nan s q p =>
    signChars s ++ (if q then "sNaN" else "NaN").toList ++ (if p = 0 then [] else digits p)
  | .finite .. => []

/-- The plain form. -/
def toText : Decimal → String
  | .finite s n e =>
    let ds := digits n
    let adjusted := e + ds.length - 1
    String.ofList <| signChars s ++
      if e ≤ 0 ∧ -6 ≤ adjusted then pointed ds (-e).toNat
      else mantissa ds ++ 'E' :: exponentChars adjusted
  | d => String.ofList d.specialChars

/-- The fixed form. A zero gets no zeros from a positive exponent. -/
def fixed : Decimal → String
  | .finite s n e =>
    let ds := if n = 0 then digits n else digits n ++ List.replicate e.toNat '0'
    String.ofList (signChars s ++ pointed ds (-e).toNat)
  | d => String.ofList d.specialChars

end PerfLedger.Decimal
