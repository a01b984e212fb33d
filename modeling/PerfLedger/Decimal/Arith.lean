import PerfLedger.Decimal.Rounding

/-!
# Arithmetic

Sum, difference, product, quotient and absolute value, each the exact result rounded once. An
operand that is a quiet not-a-number is the answer; one that signals is refused.

Two operations have to be careful about size, since exponents may be enormous. A summand that lies
far below the last kept digit of the other is replaced by one unit just out of reach, which rounds
the same way. A quotient is computed to two digits more than are kept, and a remainder is recorded
as one more digit, a *sticky* one.
-/

namespace PerfLedger.Decimal

/-- The answer that not-a-number operands force, if there is one. -/
def nanOf? : Decimal → Decimal → Option (Except Signal Decimal)
  | .nan _ true _, _ => some (.error .invalidOperation)
  | _, .nan _ true _ => some (.error .invalidOperation)
  | .nan s false p, _ => some (.ok (quieted s p))
  | _, .nan s false p => some (.ok (quieted s p))
  | _, _ => none

/-! ## Sum and difference -/

/-- The exponent below which a summand cannot reach the kept digits of `n · 10 ^ e`. -/
def reach (n : Nat) (e : Int) : Int :=
  e - 1 + min 0 ((digitCount n : Int) - precision - 1)

/-- The summand `m · 10 ^ f`, which has the smaller exponent, as it is added to `n · 10 ^ e`. -/
def lowSummand (n : Nat) (e : Int) (m : Nat) (f : Int) : Nat × Int :=
  if n ≠ 0 ∧ f + digitCount m - 1 < reach n e then (min m 1, reach n e) else (m, f)

/-- The exact signed sum of `± n · 10 ^ (f + k)` and `± m · 10 ^ f`, rounded. An exact zero is
positive unless both summands are negative. -/
def addAligned (s : Bool) (n k : Nat) (t : Bool) (m : Nat) (f : Int) : Except Signal Decimal :=
  let x := n * Nat.pow 10 k
  if s = t then round s (x + m) f
  else if x = m then round false 0 f
  else if m < x then round s (x - m) f
  else round t (m - x) f

/-- The sum of two finite numbers of which the first has the larger exponent. -/
def addOrdered (s : Bool) (n : Nat) (e : Int) (t : Bool) (m : Nat) (f : Int) :
    Except Signal Decimal :=
  let (m, f) := lowSummand n e m f
  if n = 0 then addAligned s 0 0 t m f else addAligned s n (e - f).toNat t m f

/-- The sum of two numbers that are no not-a-numbers. -/
def addNumbers : Decimal → Decimal → Except Signal Decimal
  | .infinite s, .infinite t => if s = t then .ok (.infinite s) else .error .invalidOperation
  | .infinite s, _ => .ok (.infinite s)
  | _, .infinite t => .ok (.infinite t)
  | .finite s n e, .finite t m f =>
    if f ≤ e then addOrdered s n e t m f else addOrdered t m f s n e
  | a, _ => .ok a

/-- The sum, rounded. -/
def add (a b : Decimal) : Except Signal Decimal :=
  (nanOf? a b).getD (addNumbers a b)

/-- The difference, rounded. -/
def sub (a b : Decimal) : Except Signal Decimal :=
  (nanOf? a b).getD (addNumbers a b.negate)

/-! ## Product and quotient -/

/-- The product of two numbers that are no not-a-numbers. -/
def mulNumbers : Decimal → Decimal → Except Signal Decimal
  | .finite s n e, .finite t m f => round (s ^^ t) (n * m) (e + f)
  | a, b =>
    if a.isZero || b.isZero then .error .invalidOperation
    else .ok (.infinite (a.negative ^^ b.negative))

/-- The product, rounded. -/
def mul (a b : Decimal) : Except Signal Decimal :=
  (nanOf? a b).getD (mulNumbers a b)

/-- The coefficient `n`, divided by ten as often as it can be, at most `k` times, with the exponent
that keeps its value. -/
def stripZeros (n : Nat) (e : Int) : Nat → Nat × Int
  | 0 => (n, e)
  | k + 1 => if n % 10 = 0 then stripZeros (n / 10) (e + 1) k else (n, e)

/-- The quotient of `n · 10 ^ e` by `m · 10 ^ f` for `n` and `m` not zero. An exact quotient is
written with the exponent nearest to the ideal one, `e - f`. -/
def divNonzero (negative : Bool) (n : Nat) (e : Int) (m : Nat) (f : Int) :
    Except Signal Decimal :=
  let shift : Int := (digitCount m : Int) - digitCount n + precision + 1
  let x := n * Nat.pow 10 shift.toNat
  let y := m * Nat.pow 10 (-shift).toNat
  let q := x / y
  if x % y = 0 then
    let (q, g) := stripZeros q (e - f - shift) shift.toNat
    round negative q g
  else round negative (10 * q + 1) (e - f - shift - 1)

/-- The quotient of two numbers that are no not-a-numbers. -/
def divNumbers : Decimal → Decimal → Except Signal Decimal
  | .infinite _, .infinite _ => .error .invalidOperation
  | .infinite s, b => .ok (.infinite (s ^^ b.negative))
  | a, .infinite t => .ok (.finite (a.negative ^^ t) 0 minQuantum)
  | .finite s n e, .finite t m f =>
    if m = 0 then .error (if n = 0 then .divisionUndefined else .divisionByZero)
    else if n = 0 then round (s ^^ t) 0 (e - f)
    else divNonzero (s ^^ t) n e m f
  | a, _ => .ok a

/-- The quotient, rounded. -/
def div (a b : Decimal) : Except Signal Decimal :=
  (nanOf? a b).getD (divNumbers a b)

/-- The absolute value, rounded. -/
def abs : Decimal → Except Signal Decimal
  | .finite _ n e => round false n e
  | .infinite _ => .ok (.infinite false)
  | .nan _ true _ => .error .invalidOperation
  | .nan s false p => .ok (quieted s p)

end PerfLedger.Decimal
