import PerfLedger.Text.Blank
import PerfLedger.Text.Digit
import PerfLedger.Text.Quoted

/-!
# Integer literals

An integer literal is an optional sign and digits of any script, with single underscores between
digits and spaces around it. Long literals are refused: a decimal one has at most 4300 digits.
-/

namespace PerfLedger.Integer

open PerfLedger.Text

/-- Why a text is no integer. -/
inductive Fault where
  /-- The text is no literal in the base. -/
  | badLiteral (base : Nat) (text : String)
  /-- The literal has too many digits. -/
  | tooLong (count : Nat)
  deriving DecidableEq

/-- What is reported. -/
def Fault.message : Fault → String
  | .badLiteral base t =>
    "invalid literal for int() with base " ++ toString base ++ ": " ++ quoted t
  | .tooLong n =>
    "Exceeds the limit (4300 digits) for integer string conversion: value has " ++ toString n ++
      " digits; use sys.set_int_max_str_digits() to increase the limit"

/-- The value of a digit in bases up to sixteen. -/
def digitIn? (base : Nat) (c : Char) : Option Nat :=
  let value :=
    match digitValue? c with
    | some n => some n
    | none =>
      if 'a' ≤ c ∧ c ≤ 'f' then some (c.toNat - 'a'.toNat + 10)
      else if 'A' ≤ c ∧ c ≤ 'F' then some (c.toNat - 'A'.toNat + 10)
      else none
  value.filter (· < base)

/-- The digits of a literal; an underscore may stand only between two digits. -/
def readDigits? (base : Nat) : List Char → Option (List Nat)
  | [] => none
  | [c] => (digitIn? base c).map ([·])
  | c :: '_' :: cs => do
    let n ← digitIn? base c
    let ns ← readDigits? base cs
    some (n :: ns)
  | c :: cs => do
    let n ← digitIn? base c
    let ns ← readDigits? base cs
    some (n :: ns)

/-- The number with the given digits. -/
def ofDigits (base : Nat) (ns : List Nat) : Nat :=
  ns.foldl (fun x n => x * base + n) 0

/-- The letter that may mark a base, behind a zero. -/
def baseMark? (base : Nat) : Option Char :=
  match base with
  | 2 => some 'b'
  | 8 => some 'o'
  | 16 => some 'x'
  | _ => none

/-- The digits without the mark of their base, if they have one. -/
def dropMark (base : Nat) (cs : List Char) : List Char :=
  match cs with
  | '0' :: c :: rest => if baseMark? base = some c.toLower then rest else cs
  | _ => cs

/-- The integer that a text denotes in a base. -/
def parseIn (base : Nat) (s : String) : Except Fault Int :=
  let (minus, cs) : Bool × List Char :=
    match trimBy isSpace s.toList with
    | '-' :: cs => (true, cs)
    | '+' :: cs => (false, cs)
    | cs => (false, cs)
  match readDigits? base (dropMark base cs) with
  | none => .error (.badLiteral base s)
  | some ns =>
    if base = 10 ∧ 4300 < ns.length then .error (.tooLong ns.length)
    else
      let n : Int := ofDigits base ns
      .ok (if minus then -n else n)

/-- The integer that a text denotes. -/
def parse (s : String) : Except Fault Int :=
  parseIn 10 s

end PerfLedger.Integer
