import PerfLedger.Text.Blank
import PerfLedger.Text.Digit

/-!
# Binary64 numbers

The 64-bit binary floating-point numbers, as exact values: `± m · 2 ^ e` with `m` below `2 ^ 53` and
`e` from -1074 to 971. The representation is canonical: `m` has 53 bits unless `e` is -1074.
-/

namespace PerfLedger

/-- A binary64 number by its exact value. -/
inductive Binary64 where
  | finite (negative : Bool) (significand : Nat) (exponent : Int)
  | infinite (negative : Bool)
  | nan
  deriving DecidableEq, Inhabited

namespace Binary64

/-- The number of binary digits; zero has none. -/
def bitCount (n : Nat) : Nat :=
  if n = 0 then 0 else n.log2 + 1

/-- The integer nearest to `n / d`, the even one of two. -/
def divHalfEven (n d : Nat) : Nat :=
  let q := n / d
  let r := n % d
  if d < 2 * r ∨ (2 * r = d ∧ q % 2 = 1) then q + 1 else q

/-- `n / d · 2 ^ -e` as a quotient of integers. -/
def scaled (n d : Nat) (e : Int) : Nat × Nat :=
  (n * Nat.pow 2 (-e).toNat, d * Nat.pow 2 e.toNat)

/-- An exponent at which the quotient of two positive integers has `p` or `p + 1` bits before the
point. -/
def leadingExponent (p n d : Nat) : Int :=
  (bitCount n : Int) - bitCount d - p

/-- The number with `p` significant bits nearest to `n / d`, with exponents from `low` on: a
significand and an exponent. -/
def nearestWith (p : Nat) (low : Int) (n d : Nat) : Nat × Int :=
  let guess := max (leadingExponent p n d) low
  let (x, y) := scaled n d guess
  let e := if x / y < Nat.pow 2 p then guess else guess + 1
  let (x, y) := scaled n d e
  let m := divHalfEven x y
  if m = Nat.pow 2 p then (Nat.pow 2 (p - 1), e + 1) else (m, e)

/-- The number nearest to `± n / d`; beyond the largest one lies infinity. -/
def ofQuotient (negative : Bool) (n d : Nat) : Binary64 :=
  if n = 0 then .finite negative 0 (-1074)
  else
    let (m, e) := nearestWith 53 (-1074) n d
    if e > 971 then .infinite negative else .finite negative m e

/-- The number nearest to `± n · 10 ^ e`. Exponents that can only give zero or infinity are not
expanded. -/
def ofDecimal (negative : Bool) (n : Nat) (e : Int) : Binary64 :=
  let places : Int := (Text.digits n).length
  if n = 0 ∨ e + places < -400 then .finite negative 0 (-1074)
  else if e + places > 400 then .infinite negative
  else if e < 0 then ofQuotient negative n (Nat.pow 10 (-e).toNat)
  else ofQuotient negative (n * Nat.pow 10 e.toNat) 1

/-- The number nearest to an integer. -/
def ofInt (i : Int) : Binary64 :=
  ofQuotient (i < 0) i.natAbs 1

/-- The exact value as a quotient: numerator, with its sign, and denominator. -/
def toQuotient? : Binary64 → Option (Int × Nat)
  | .finite s m e =>
    let n : Int := m * Nat.pow 2 e.toNat
    some (if s then -n else n, Nat.pow 2 (-e).toNat)
  | _ => none

/-- The integer that the number is, if it is one. -/
def toInt? (x : Binary64) : Option Int :=
  match x.toQuotient? with
  | some (n, d) => if n % d = 0 then some (n / d) else none
  | none => none

/-- A number of value zero. -/
def isZero : Binary64 → Bool
  | .finite _ m _ => m == 0
  | _ => false

/-- The order of two numbers; a not-a-number has none. -/
def compare? : Binary64 → Binary64 → Option Ordering
  | .nan, _ => none
  | _, .nan => none
  | .infinite s, .infinite t => some (if s = t then .eq else if s then .lt else .gt)
  | .infinite s, _ => some (if s then .lt else .gt)
  | _, .infinite t => some (if t then .gt else .lt)
  | x, y =>
    match x.toQuotient?, y.toQuotient? with
    | some (n, d), some (m, c) => some (compare (n * c) (m * d))
    | _, _ => none

/-! ## Reading -/

/-- Digits with single underscores between them, without the underscores. -/
def ungrouped? : List Char → Option (List Char)
  | [] => some []
  | '_' :: _ => none
  | c :: '_' :: d :: cs =>
    if c.isDigit && d.isDigit then (ungrouped? (d :: cs)).map (c :: ·) else none
  | c :: cs => (ungrouped? cs).map (c :: ·)

/-- The exponent part: nothing, or `e`, an optional sign and digits. -/
def readExponent? : List Char → Option Int
  | [] => some 0
  | c :: cs =>
    let (minus, ds) : Bool × List Char :=
      match cs with
      | '-' :: ds => (true, ds)
      | '+' :: ds => (false, ds)
      | ds => (false, ds)
    if c.toLower = 'e' ∧ ds ≠ [] ∧ ds.all Char.isDigit then
      let n : Int := Text.digitsValue ds
      some (if minus then -n else n)
    else none

/-- The number that an unsigned numeral denotes. -/
def readUnsigned? (negative : Bool) (cs : List Char) : Option Binary64 :=
  let name := String.ofList (cs.map Char.toLower)
  if name = "inf" ∨ name = "infinity" then some (.infinite negative)
  else if name = "nan" then some .nan
  else
    let whole := cs.takeWhile Char.isDigit
    let rest := cs.dropWhile Char.isDigit
    let (fraction, tail) :=
      match rest with
      | '.' :: ds => (ds.takeWhile Char.isDigit, ds.dropWhile Char.isDigit)
      | ds => ([], ds)
    if whole = [] ∧ fraction = [] then none
    else (readExponent? tail).map fun e =>
      ofDecimal negative (Text.digitsValue (whole ++ fraction)) (e - fraction.length)

/-- The number that a text denotes: a numeral with digits of any script, or the name of an infinity
or of the not-a-number, between spaces. -/
def parse? (s : String) : Option Binary64 := do
  let cs ← ungrouped? ((Text.trimBy Text.isSpace s.toList).map Text.toAsciiDigit)
  match cs with
  | '-' :: ds => readUnsigned? true ds
  | '+' :: ds => readUnsigned? false ds
  | ds => readUnsigned? false ds

end Binary64

end PerfLedger
