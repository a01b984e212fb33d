import PerfLedger.Binary64.Basic

/-!
# Numerals of the database

Text in a numeric column becomes a number if all of it is a numeral: blanks, a sign, digits with an
optional point, an optional exponent, and blanks. The number is computed from at most nineteen
digits in a binary format with 64 significant bits, and only then rounded to a binary64 number.
-/

namespace PerfLedger.Database

/-- A blank of the database: a space, a tab, or one of the line ends. -/
def isBlank (c : Char) : Bool :=
  c == ' ' || (0x09 ≤ c.toNat && c.toNat ≤ 0x0D)

/-- The parts of a numeral. -/
structure Numeral where
  negative : Bool
  whole : List Char
  fraction : List Char
  exponent : Int
  /-- There is neither a point nor an exponent. -/
  isInteger : Bool
  deriving DecidableEq

/-- A sign and what follows it. -/
def readSign : List Char → Bool × List Char
  | '-' :: cs => (true, cs)
  | '+' :: cs => (false, cs)
  | cs => (false, cs)

/-- The largest magnitude that an exponent is told apart to. -/
def exponentLimit : Nat := 10000

/-- An exponent, if the text has one, and the text after it. -/
def readExponent? : List Char → Option (Option Int × List Char)
  | [] => some (none, [])
  | c :: cs =>
    if c = 'e' ∨ c = 'E' then
      let (minus, ds) := readSign cs
      let digits := ds.takeWhile Char.isDigit
      if digits = [] then none
      else
        let n : Int := min (Text.digitsValue digits) exponentLimit
        some (some (if minus then -n else n), ds.dropWhile Char.isDigit)
    else some (none, c :: cs)

/-- The numeral that a text is. -/
def readNumeral? (cs : List Char) : Option Numeral := do
  let (negative, cs) := readSign (cs.dropWhile isBlank)
  let whole := cs.takeWhile Char.isDigit
  let rest := cs.dropWhile Char.isDigit
  let (point, fraction, rest) : Bool × List Char × List Char :=
    match rest with
    | '.' :: ds => (true, ds.takeWhile Char.isDigit, ds.dropWhile Char.isDigit)
    | ds => (false, [], ds)
  let (exponent, rest) ← readExponent? rest
  if (whole = [] ∧ fraction = []) ∨ rest.any (fun c => !isBlank c) then none
  else
    some { negative, whole, fraction
           exponent := exponent.getD 0
           isInteger := !point && exponent.isNone }

/-! ## Value -/

/-- The most that a significand may be before no more digits are taken into it. -/
def significandLimit : Nat := 922337203685477579

/-- The significand of digits, and how many of them were not taken. -/
def takeDigits (s : Nat) : List Char → Nat × Nat
  | [] => (s, 0)
  | c :: cs =>
    if significandLimit ≤ s then (s, (c :: cs).length)
    else takeDigits (10 * s + (c.toNat - 0x30)) cs

/-- A significand times a power of ten, with the power brought as near to zero as the significand
allows in `k` steps. A significand of nineteen digits allows no more than nineteen. -/
def reduce (s : Nat) (e : Int) : Nat → Nat × Int
  | 0 => (s, e)
  | k + 1 =>
    if 0 < e ∧ s < 922337203685477580 then reduce (10 * s) (e - 1) k
    else if e < 0 ∧ s % 10 = 0 then reduce (s / 10) (e + 1) k
    else (s, e)

/-- A positive number with 64 significant bits: a significand and an exponent of two. -/
structure Wide where
  significand : Nat
  exponent : Int

namespace Wide

/-- The nearest number to a quotient. -/
def ofQuotient (n d : Nat) : Wide :=
  let (m, e) := Binary64.nearestWith 64 (-16445) n d
  ⟨m, e⟩

/-- The product, rounded. -/
def mul (a b : Wide) : Wide :=
  let e := a.exponent + b.exponent
  ofQuotient (a.significand * b.significand * Nat.pow 2 e.toNat) (Nat.pow 2 (-e).toNat)

/-- The quotient, rounded. -/
def div (a b : Wide) : Wide :=
  let e := a.exponent - b.exponent
  ofQuotient (a.significand * Nat.pow 2 e.toNat) (b.significand * Nat.pow 2 (-e).toNat)

/-- The number as a binary64 number. -/
def toBinary64 (negative : Bool) (a : Wide) : Binary64 :=
  let e := a.exponent
  Binary64.ofQuotient negative (a.significand * Nat.pow 2 e.toNat) (Nat.pow 2 (-e).toNat)

/-- `r · x ^ k` by repeated squaring, with each product rounded. -/
def timesPower (r x : Wide) (k : Nat) : Wide :=
  let r := if k % 2 = 1 then r.mul x else r
  if k < 2 then r else timesPower r (x.mul x) (k / 2)
termination_by k
decreasing_by omega

/-- A power of ten. -/
def tenTo (k : Nat) : Wide :=
  timesPower (ofQuotient 1 1) (ofQuotient 10 1) k

end Wide

/-- The binary64 number times or divided by `10 ^ 308`. -/
def scaleFar (x : Binary64) (up : Bool) : Binary64 :=
  let far := Binary64.ofDecimal false 1 308
  match x, x.toQuotient?, far.toQuotient? with
  | .finite s _ _, some (n, d), some (m, c) =>
    if up then Binary64.ofQuotient s (n.natAbs * m.natAbs) (d * c)
    else Binary64.ofQuotient s (n.natAbs * c) (d * m.natAbs)
  | _, _, _ => x

/-- The number `± s · 10 ^ e`, computed with 64 significant bits. -/
def scaledBinary64 (negative : Bool) (s : Nat) (e : Int) : Binary64 :=
  let w := Wide.ofQuotient s 1
  let k := e.natAbs
  let up := decide (0 < e)
  let apply (k : Nat) : Binary64 :=
    (if up then w.mul (Wide.tenTo k) else w.div (Wide.tenTo k)).toBinary64 negative
  if s = 0 then .finite negative 0 (-1074)
  else if k = 0 then Binary64.ofQuotient negative s 1
  else if k ≤ 307 then apply k
  else if k < 342 then scaleFar (apply (k - 308)) up
  else if up then .infinite negative
  else .finite negative 0 (-1074)

/-- The number that a numeral stands for. -/
def Numeral.toBinary64 (n : Numeral) : Binary64 :=
  let (s, skipped) := takeDigits 0 n.whole
  let (s, ignored) := takeDigits s n.fraction
  let taken := n.fraction.length - ignored
  let (s, e) := reduce s (n.exponent + skipped - taken) 20
  scaledBinary64 n.negative s e

/-- The integer that a numeral without point and exponent is. -/
def Numeral.toInt (n : Numeral) : Int :=
  let i : Int := Text.digitsValue n.whole
  if n.negative then -i else i

end PerfLedger.Database
