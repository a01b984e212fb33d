import PerfLedger.Decimal.Basic

/-!
# Rounding to the working precision

An operation computes the exact value `± n · 10 ^ e` first and rounds it once. The last place that
is kept, the *quantum*, is the least exponent at which the number has at most 28 digits and which
is neither below the exact exponent nor below the smallest one. A half goes to the even neighbour.
-/

namespace PerfLedger.Decimal

/-- The integer nearest to `n / d`, the even one of two. -/
def divHalfEven (n d : Nat) : Nat :=
  let q := n / d
  let r := n % d
  if d < 2 * r ∨ (2 * r = d ∧ q % 2 = 1) then q + 1 else q

/-- The exponent of the last place that is kept of `n · 10 ^ e`. -/
def quantum (n : Nat) (e : Int) : Int :=
  max e (max (e + digitCount n - precision) minQuantum)

/-- The multiple of `10 ^ q` nearest to `n · 10 ^ e`, as a coefficient. A shift of more places than
`n` has digits leaves less than a tenth, so the power is not built. -/
def coefficientAt (n : Nat) (e q : Int) : Nat :=
  let shift := (q - e).toNat
  if digitCount n < shift then 0 else divHalfEven n (Nat.pow 10 shift)

/-- The coefficient and exponent of `n · 10 ^ e` after rounding. Rounding up may reach a power of
ten with one digit too many, which is then written with one zero less. -/
def rounded (n : Nat) (e : Int) : Nat × Int :=
  let q := quantum n e
  let m := coefficientAt n e q
  if m = Nat.pow 10 precision then (Nat.pow 10 (precision - 1), q + 1) else (m, q)

/-- The exponent that a zero is given: the nearest one in range. -/
def zeroExponent (e : Int) : Int :=
  min (max e minQuantum) maxExponent

/-- The result of an operation with the exact value `± n · 10 ^ e`. -/
def round (negative : Bool) (n : Nat) (e : Int) : Except Signal Decimal :=
  if n = 0 then .ok (.finite negative 0 (zeroExponent e))
  else
    let (m, q) := rounded n e
    if q + digitCount m - 1 > maxExponent then .error .overflow
    else .ok (.finite negative m q)

/-- The quiet not-a-number that an operand turns into: its payload keeps its last 28 digits. -/
def quieted (negative : Bool) (payload : Nat) : Decimal :=
  .nan negative false (payload % Nat.pow 10 precision)

end PerfLedger.Decimal
