import PerfLedger.Yaml.Tag

/-!
# Scalars

The value of a scalar is made from its text by the rule of its tag. A tag can be written in front of
any text, so each rule has to say what is wrong with a text that is not of its form.
-/

namespace PerfLedger.Yaml

namespace Scalar

/-- The text without underscores. -/
def withoutLines (cs : List Char) : List Char :=
  cs.filter (· != '_')

/-- The sign of a text, which must not be empty, and the text without it. -/
def splitSign (cs : List Char) : Except Fault (Bool × List Char) :=
  match cs with
  | [] => .error .emptyNumber
  | '-' :: ds => .ok (true, ds)
  | '+' :: ds => .ok (false, ds)
  | ds => .ok (false, ds)

/-- The integer with a sign. -/
def signed (minus : Bool) (i : Int) : Int :=
  if minus then -i else i

/-- An integer in a base. -/
def integerIn (base : Nat) (cs : List Char) : Except Fault Int :=
  (Integer.parseIn base (String.ofList cs)).mapError .integer

/-- The value of digits in base sixty, the last one first. -/
def ofSixties (digits : List Int) : Int :=
  match digits with
  | [] => 0
  | d :: ds => d + 60 * ofSixties ds

/-- The integer that a text is: in base two or sixteen by its first characters, in base eight by a
leading zero, in base sixty if there are colons, else in base ten. -/
def toInt (cs : List Char) : Except Fault Int := do
  let (minus, ds) ← splitSign (withoutLines cs)
  match ds with
  | [] => .error .emptyNumber
  | ['0'] => return 0
  | '0' :: 'b' :: ds => return signed minus (← integerIn 2 ds)
  | '0' :: 'x' :: ds => return signed minus (← integerIn 16 ds)
  | '0' :: _ => return signed minus (← integerIn 8 ds)
  | ds =>
    if ds.contains ':' then
      let digits ← (Tag.colonParts ds).mapM (integerIn 10)
      return signed minus (ofSixties digits.reverse)
    else return signed minus (← integerIn 10 ds)

/-- A binary64 number. -/
def numberOf (cs : List Char) : Except Fault Binary64 :=
  match Binary64.parse? (String.ofList cs) with
  | some x => .ok x
  | none => .error (.number (String.ofList cs))

/-- The sum of numbers in base sixty, the last one first, if all are finite. -/
def sumSixties (xs : List Binary64) : Binary64 :=
  let parts := xs.map fun x => x.toQuotient?.getD (0, 1)
  let sum := parts.foldr (fun (n, d) (acc : Int × Nat) =>
    (n * acc.2 + 60 * acc.1 * d, d * acc.2)) (0, 1)
  match xs.find? fun x => x.toQuotient?.isNone with
  | some x => x
  | none => Binary64.ofQuotient (sum.1 < 0) sum.1.natAbs sum.2

/-- The number with the other sign, if it is asked for. -/
def withSign (minus : Bool) (x : Binary64) : Binary64 :=
  match x with
  | .finite s m e => .finite (s != minus) m e
  | .infinite s => .infinite (s != minus)
  | .nan => .nan

/-- The binary64 number that a text is, in base sixty if there are colons. -/
def toNumber (cs : List Char) : Except Fault Binary64 := do
  let (minus, ds) ← splitSign ((withoutLines cs).map Char.toLower)
  if ds = ".inf".toList then return .infinite minus
  else if ds = ".nan".toList then return .nan
  else if ds.contains ':' then
    let parts ← (Tag.colonParts ds).mapM numberOf
    return withSign minus (sumSixties parts.reverse)
  else return withSign minus (← numberOf ds)

/-- The truth value that a word stands for, in letters of any case. -/
def toTruth (cs : List Char) : Except Fault Bool :=
  let word := String.ofList (cs.map Char.toLower)
  if ["yes", "true", "on"].contains word then .ok true
  else if ["no", "false", "off"].contains word then .ok false
  else .error (.truth word)

/-! ## Bytes -/

/-- The value of a digit in base 64. -/
def base64Value? (c : Char) : Option Nat :=
  if 'A' ≤ c ∧ c ≤ 'Z' then some (c.toNat - 'A'.toNat)
  else if 'a' ≤ c ∧ c ≤ 'z' then some (c.toNat - 'a'.toNat + 26)
  else if c.isDigit then some (c.toNat - '0'.toNat + 52)
  else if c = '+' then some 62
  else if c = '/' then some 63
  else none

/-- The bytes of digits in base 64. `count` digits of the current group of four have been read, of
which `left` remains, and `pads` equals signs stand directly before. Other characters are
skipped. -/
def decode64 (count left pads : Nat) : List Char → Option (List UInt8)
  | [] => if count = 0 then some [] else none
  | c :: cs =>
    if c = '=' then
      if 2 ≤ count ∧ 4 ≤ count + pads + 1 then some []
      else decode64 count left (if 2 ≤ count then pads + 1 else pads) cs
    else
      match base64Value? c with
      | none => decode64 count left pads cs
      | some n =>
        match count with
        | 0 => decode64 1 n 0 cs
        | 1 => (decode64 2 (n % 16) 0 cs).map (UInt8.ofNat (left * 4 + n / 16) :: ·)
        | 2 => (decode64 3 (n % 4) 0 cs).map (UInt8.ofNat (left * 16 + n / 4) :: ·)
        | _ => (decode64 0 0 0 cs).map (UInt8.ofNat (left * 64 + n) :: ·)

/-- The bytes that an ASCII text stands for. -/
def toBytes (cs : List Char) : Except Fault (List UInt8) :=
  if cs.any fun c => 0x80 ≤ c.toNat then .error .tag
  else
    match decode64 0 0 0 cs with
    | some bs => .ok bs
    | none => .error .tag

/-- The date that a text is. -/
def toDate (cs : List Char) : Except Fault Value :=
  match Stamp.read? (Tag.dropFinalBreak cs) with
  | some s => s.toValue
  | none => .error .dateForm

/-! ## Values -/

/-- The value of a scalar by its tag. A scalar that has no text, because half a surrogate pair is
among its characters, can only be a string. -/
def toValue (tag : String) (text : Option (List Char)) : Except Fault Value :=
  match text with
  | none =>
    if tag = Tag.null then .ok .null
    else if tag = Tag.str then .ok .brokenText
    else .error .tag
  | some cs =>
    if tag = Tag.null then .ok .null
    else if tag = Tag.bool then (toTruth cs).map .bool
    else if tag = Tag.int then (toInt cs).map .int
    else if tag = Tag.float then (toNumber cs).map .float
    else if tag = Tag.binary then (toBytes cs).map .bytes
    else if tag = Tag.timestamp then toDate cs
    else if tag = Tag.str then .ok (.text (String.ofList cs))
    else .error .tag

end Scalar

end PerfLedger.Yaml
