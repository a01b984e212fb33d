import PerfLedger.Binary64.Basic

/-!
# Decimal text of binary64 numbers

The *shortest* text has the fewest digits that read back as the same number, and of those the
nearest to it. The values that round to a number form an interval around it, whose ends belong to
it exactly when the significand is even. On the grid of decimals with a given number of digits, if
any point lies in the interval then one of the value's two neighbours does, so it is enough to
test those two, grid by grid.

The *rounded* text has fifteen significant digits.
-/

namespace PerfLedger.Binary64

open PerfLedger.Text

/-! ## Digits -/

/-- The interval of the values that round to a finite number, as numerators over one denominator:
lower end, value, upper end, denominator. -/
def interval (m : Nat) (e : Int) : Nat × Nat × Nat × Nat :=
  let up := Nat.pow 2 e.toNat
  let d := 4 * Nat.pow 2 (-e).toNat
  let below := if m = Nat.pow 2 52 ∧ -1074 < e then 1 else 2
  ((4 * m - below) * up, 4 * m * up, (4 * m + 2) * up, d)

/-- The exponent of ten of the leading digit of `n / d`, from an estimate that is corrected. -/
def leadingPlace (n d : Nat) : Int :=
  let guess : Int := ((digits n).length : Int) - (digits d).length
  if 0 ≤ guess then (if d * Nat.pow 10 guess.toNat ≤ n then guess else guess - 1)
  else if d ≤ n * Nat.pow 10 (-guess).toNat then guess else guess - 1

/-- The neighbours of `n / d` below and above on the grid of multiples of `10 ^ place`, with the
scaling that turns a grid point into a numerator over the same denominator. -/
def gridFloor (n d : Nat) (place : Int) : Nat :=
  n * Nat.pow 10 (-place).toNat / (d * Nat.pow 10 place.toNat)

/-- Whether `g · 10 ^ place` lies between `low / d` and `high / d`. -/
def within (low high d : Nat) (closed : Bool) (g : Nat) (place : Int) : Bool :=
  let x := g * d * Nat.pow 10 place.toNat
  let scale := Nat.pow 10 (-place).toNat
  if closed then low * scale ≤ x && x ≤ high * scale else low * scale < x && x < high * scale

/-- The nearer of the neighbours `g` and `g + 1` of `n / d` on a grid; the even one of two. -/
def nearerOf (n d g : Nat) (place : Int) : Nat :=
  let x := 2 * n * Nat.pow 10 (-place).toNat
  let mid := (2 * g + 1) * d * Nat.pow 10 place.toNat
  if x < mid ∨ (x = mid ∧ g % 2 = 0) then g else g + 1

/-- The point of a grid that reads back, the nearer one of two. -/
def pointOn? (m : Nat) (e : Int) (place : Int) : Option Nat :=
  let (low, n, high, d) := interval m e
  let closed := m % 2 = 0
  let g := gridFloor n d place
  match within low high d closed g place, within low high d closed (g + 1) place with
  | true, true => some (nearerOf n d g place)
  | true, false => some g
  | false, true => some (g + 1)
  | false, false => none

/-- The coarsest grid with a point that reads back, trying `k` grids from `place` down. -/
def shortestFrom (m : Nat) (e : Int) (place : Int) : Nat → Nat × Int
  | 0 => ((pointOn? m e place).getD 0, place)
  | k + 1 =>
    match pointOn? m e place with
    | some g => (g, place)
    | none => shortestFrom m e (place - 1) k

/-- The shortest decimal `g · 10 ^ place` that reads back as the positive number `m · 2 ^ e`. -/
def shortest (m : Nat) (e : Int) : Nat × Int :=
  let (_, n, _, d) := interval m e
  shortestFrom m e (leadingPlace n d + 1) 18

/-! ## Text -/

/-- Digits without the zeros at their end. -/
def dropTrailingZeros (ds : List Char) : List Char :=
  (ds.reverse.dropWhile (· == '0')).reverse

/-- An exponent with its sign and at least two digits. -/
def exponentText (e : Int) : List Char :=
  'e' :: (if e < 0 then '-' else '+') :: padded 2 e.natAbs

/-- Digits with the point after the digit of `10 ^ 0`, where the first digit stands for
`10 ^ place`; at least one digit stands on both sides. -/
def positional (ds : List Char) (place : Int) : List Char :=
  if place < 0 then '0' :: '.' :: List.replicate (-place - 1).toNat '0' ++ ds
  else
    let k := place.toNat + 1
    let whole := ds.take k ++ List.replicate (k - ds.length) '0'
    let fraction := ds.drop k
    whole ++ '.' :: (if fraction = [] then ['0'] else fraction)

/-- Digits with the point after the first one and an exponent. A single digit gets a point and a
zero only if asked to. -/
def scientific (ds : List Char) (place : Int) (keepPoint : Bool) : List Char :=
  match ds with
  | [] => []
  | [d] => d :: (if keepPoint then ['.', '0'] else []) ++ exponentText place
  | d :: fraction => d :: '.' :: fraction ++ exponentText place

/-- The sign of a negative number. -/
def signText (negative : Bool) : List Char :=
  if negative then ['-'] else []

/-- The shortest text: positional from `10 ^ -4` up to below `10 ^ 16`, else scientific. -/
def toText : Binary64 → String
  | .nan => "nan"
  | .infinite s => if s then "-inf" else "inf"
  | .finite s m e =>
    if m = 0 then (if s then "-0.0" else "0.0")
    else
      let (g, place) := shortest m e
      let all := digits g
      let ds := dropTrailingZeros all
      let lead := place + all.length - 1
      String.ofList <| signText s ++
        if -4 ≤ lead ∧ lead < 16 then positional ds lead else scientific ds lead false

/-- The first fifteen significant digits, a half rounded up, and the place of the first digit. -/
def fifteenDigits (n d : Nat) : Nat × Int :=
  let place := leadingPlace n d - 14
  let x := n * Nat.pow 10 (-place).toNat
  let y := d * Nat.pow 10 place.toNat
  let g := (2 * x + y) / (2 * y)
  if g = Nat.pow 10 15 then (Nat.pow 10 14, place + 15) else (g, place + 14)

/-- The text with fifteen significant digits and always a point: positional for leading places
from -4 to 14, else scientific. The sign of a zero is not written. -/
def toRoundedText : Binary64 → String
  | .nan => "NaN"
  | .infinite s => if s then "-Inf" else "Inf"
  | .finite s m e =>
    if m = 0 then "0.0"
    else
      let (g, lead) := fifteenDigits (m * Nat.pow 2 e.toNat) (Nat.pow 2 (-e).toNat)
      let ds := dropTrailingZeros (digits g)
      String.ofList <| signText s ++
        if -4 ≤ lead ∧ lead ≤ 14 then positional ds lead else scientific ds lead true

end PerfLedger.Binary64
