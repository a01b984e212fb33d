import PerfLedger.Decimal.Basic

/-!
# Comparison

Decimals are compared by value and without rounding. Numbers of different adjusted exponents are
told apart by them alone, so that only numbers of about the same size are aligned. A
not-a-number is equal to nothing and has no place in the order; asking for it is a signal.
-/

namespace PerfLedger.Decimal

/-- The order of `n · 10 ^ e` and `m · 10 ^ f`. -/
def compareMagnitude (n : Nat) (e : Int) (m : Nat) (f : Int) : Ordering :=
  if n = 0 ∨ m = 0 then compare n m
  else if e + digitCount n ≠ f + digitCount m then compare (e + digitCount n) (f + digitCount m)
  else
    let low := min e f
    compare (n * Nat.pow 10 (e - low).toNat) (m * Nat.pow 10 (f - low).toNat)

/-- The order of two numbers that are no not-a-numbers. -/
def compareNumbers : Decimal → Decimal → Ordering
  | .infinite s, .infinite t => if s = t then .eq else if s then .lt else .gt
  | .infinite s, _ => if s then .lt else .gt
  | _, .infinite t => if t then .gt else .lt
  | .finite s n e, .finite t m f =>
    if n = 0 ∧ m = 0 then .eq
    else if n = 0 then (if t then .gt else .lt)
    else if m = 0 then (if s then .lt else .gt)
    else if s ≠ t then (if s then .lt else .gt)
    else if s then compareMagnitude m f n e
    else compareMagnitude n e m f
  | _, _ => .eq

/-- Equality of value. Only a signalling not-a-number is refused. -/
def equal (a b : Decimal) : Except Signal Bool :=
  if a.isSignaling || b.isSignaling then .error .invalidOperation
  else if a.isNaN || b.isNaN then .ok false
  else .ok (compareNumbers a b == .eq)

/-- The strict order of values. Every not-a-number is refused. -/
def less (a b : Decimal) : Except Signal Bool :=
  if a.isNaN || b.isNaN then .error .invalidOperation
  else .ok (compareNumbers a b == .lt)

end PerfLedger.Decimal
