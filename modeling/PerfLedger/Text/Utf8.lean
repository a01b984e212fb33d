import PerfLedger.Text.Quoted

/-!
# UTF-8

Decoding of bytes into characters, and where and why it fails. A sequence is refused at its first
byte; of a sequence that breaks off, the message counts the bytes that could still have begun a
character. Bytes that are refused stay what they are (`Garbled`): no other text stands for them.
-/

namespace PerfLedger.Text

/-- Why bytes are no text: the byte, its position, how many bytes are wrong together, and the
reason. -/
inductive Utf8Error where
  | invalidStart (position : Nat) (byte : UInt8)
  | invalidContinuation (position count : Nat) (byte : UInt8)
  | unexpectedEnd (position count : Nat) (byte : UInt8)
  deriving DecidableEq

/-- Bytes in a message: one by its value, several by the span they take. -/
def Utf8Error.span (position count : Nat) (byte : UInt8) : String :=
  if count = 1 then
    "byte 0x" ++ String.ofList (hexDigits 2 byte.toNat) ++ " in position " ++ toString position
  else "bytes in position " ++ toString position ++ "-" ++ toString (position + count - 1)

/-- What is reported. -/
def Utf8Error.message : Utf8Error → String
  | .invalidStart p b => "'utf-8' codec can't decode " ++ span p 1 b ++ ": invalid start byte"
  | .invalidContinuation p n b =>
    "'utf-8' codec can't decode " ++ span p n b ++ ": invalid continuation byte"
  | .unexpectedEnd p n b =>
    "'utf-8' codec can't decode " ++ span p n b ++ ": unexpected end of data"

/-- The shape of a character by its first byte: how many bytes follow, the least and greatest value
of the second byte, and the bits that the first byte contributes. -/
def leadShape? (b : Nat) : Option (Nat × Nat × Nat × Nat) :=
  if 0xC2 ≤ b ∧ b ≤ 0xDF then some (1, 0x80, 0xBF, b - 0xC0)
  else if b = 0xE0 then some (2, 0xA0, 0xBF, b - 0xE0)
  else if b = 0xED then some (2, 0x80, 0x9F, b - 0xE0)
  else if 0xE1 ≤ b ∧ b ≤ 0xEF then some (2, 0x80, 0xBF, b - 0xE0)
  else if b = 0xF0 then some (3, 0x90, 0xBF, b - 0xF0)
  else if b = 0xF4 then some (3, 0x80, 0x8F, b - 0xF0)
  else if 0xF1 ≤ b ∧ b ≤ 0xF3 then some (3, 0x80, 0xBF, b - 0xF0)
  else none

/-- What the bytes after a first byte give: the code point and the number of bytes read, or the
number of good bytes and whether the input ended there. -/
inductive Continuation where
  | complete (code : Nat)
  | broken (good : Nat) (atEnd : Bool)

/-- The next `k` continuation bytes, the first of which lies between `low` and `high`. -/
def readContinuation (low high good code : Nat) : Nat → List UInt8 → Continuation
  | 0, _ => .complete code
  | _ + 1, [] => .broken good true
  | k + 1, b :: bs =>
    if low ≤ b.toNat ∧ b.toNat ≤ high then
      readContinuation 0x80 0xBF (good + 1) (code * 64 + (b.toNat - 0x80)) k bs
    else .broken good false

/-- Decodes from a position; `skip` bytes still belong to the last character. -/
def decodeUtf8From (position skip : Nat) (acc : List Char) :
    List UInt8 → Except Utf8Error (List Char)
  | [] => .ok acc.reverse
  | b :: bs =>
    match skip with
    | k + 1 => decodeUtf8From (position + 1) k acc bs
    | 0 =>
      if b.toNat < 0x80 then decodeUtf8From (position + 1) 0 (Char.ofNat b.toNat :: acc) bs
      else
        match leadShape? b.toNat with
        | none => .error (.invalidStart position b)
        | some (k, low, high, bits) =>
          match readContinuation low high 0 bits k bs with
          | .complete code => decodeUtf8From (position + 1) k (Char.ofNat code :: acc) bs
          | .broken good true => .error (.unexpectedEnd position (good + 1) b)
          | .broken good false => .error (.invalidContinuation position (good + 1) b)

/-- The characters of UTF-8 bytes. -/
def decodeUtf8 (bs : List UInt8) : Except Utf8Error (List Char) :=
  decodeUtf8From 0 0 [] bs

/-- The UTF-8 bytes of characters. -/
def encodeUtf8 (cs : List Char) : List UInt8 :=
  cs.flatMap String.utf8EncodeChar

/-- Bytes that are no text. -/
structure Garbled where
  bytes : List UInt8
  /-- There are no characters of which these are the bytes. -/
  not_text : (decodeUtf8 bytes).toOption = none
  deriving DecidableEq

/-- The text that bytes are, if they are one. -/
def readUtf8 (bs : List UInt8) : Except Garbled String :=
  match h : decodeUtf8 bs with
  | .ok cs => .ok (String.ofList cs)
  | .error _ => .error ⟨bs, by rw [h]; rfl⟩

end PerfLedger.Text
