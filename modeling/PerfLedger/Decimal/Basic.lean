/-!
# Decimal numbers

A finite decimal is a sign, a coefficient and an exponent, and stands for
`± coefficient · 10 ^ exponent`; the exponent is kept, so that `1.0` and `1.00` are different
decimals of the same value. There are also two infinities, quiet and signalling not-a-numbers, and
two zeros for each exponent.

The working precision of arithmetic is fixed here: 28 significant digits, adjusted exponents from
-999999 to 999999, and signals for the operations that have no answer.
-/

namespace PerfLedger

/-- A decimal number. A `nan` carries a diagnostic payload, zero standing for none. -/
inductive Decimal where
  | finite (negative : Bool) (coefficient : Nat) (exponent : Int)
  | infinite (negative : Bool)
  | nan (negative signaling : Bool) (payload : Nat)
  deriving DecidableEq, Inhabited

namespace Decimal

/-- Why a decimal operation has no answer. -/
inductive Signal where
  | conversionSyntax
  | invalidOperation
  | divisionUndefined
  | divisionByZero
  | overflow
  deriving DecidableEq, Inhabited

/-- The number of significant digits that an operation keeps. -/
def precision : Nat := 28

/-- The largest adjusted exponent of a finite result. -/
def maxExponent : Int := 999999

/-- The least exponent of a result: the last place of the smallest subnormal number. -/
def minQuantum : Int := -1000026

/-- The number of decimal digits of a coefficient; zero has one. -/
def digitCount (n : Nat) : Nat :=
  if n < 10 then 1 else digitCount (n / 10) + 1
termination_by n
decreasing_by omega

/-- The decimal of an integer. -/
def ofInt (i : Int) : Decimal :=
  .finite (i < 0) i.natAbs 0

/-- The decimal of a natural number. -/
def ofNat (n : Nat) : Decimal :=
  .finite false n 0

instance : OfNat Decimal n := ⟨ofNat n⟩

/-- The sign bit, which zeros and not-a-numbers have too. -/
def negative : Decimal → Bool
  | .finite s _ _ => s
  | .infinite s => s
  | .nan s _ _ => s

/-- The same number with the other sign. -/
def negate : Decimal → Decimal
  | .finite s n e => .finite (!s) n e
  | .infinite s => .infinite (!s)
  | .nan s q p => .nan (!s) q p

/-- A quiet or signalling not-a-number. -/
def isNaN : Decimal → Bool
  | .nan .. => true
  | _ => false

/-- A not-a-number that every operation refuses. -/
def isSignaling : Decimal → Bool
  | .nan _ q _ => q
  | _ => false

/-- A finite number of value zero. -/
def isZero : Decimal → Bool
  | .finite _ n _ => n == 0
  | _ => false

/-- How many digits are written for the number: those of the coefficient or of the payload; one for
an infinity. -/
def writtenDigits : Decimal → Nat
  | .finite _ n _ => digitCount n
  | .infinite _ => 1
  | .nan _ _ p => if p = 0 then 0 else digitCount p

end Decimal

end PerfLedger
