import PerfLedger.Json.Fault

/-!
# JSON strings

Writing escapes the quote, the backslash and the control characters; all others stand for
themselves. Reading understands every escape, and a pair of escaped surrogates as one character.
-/

namespace PerfLedger.Json

/-! ## Writing -/

/-- A character inside a string. -/
def encodeChar (c : Char) : List Char :=
  if c = '"' ∨ c = '\\' then ['\\', c]
  else if c = '\x08' then ['\\', 'b']
  else if c = '\t' then ['\\', 't']
  else if c = '\n' then ['\\', 'n']
  else if c = '\x0c' then ['\\', 'f']
  else if c = '\r' then ['\\', 'r']
  else if c.toNat < 0x20 then '\\' :: 'u' :: Text.hexDigits 4 c.toNat
  else [c]

/-- A string between its quotes. -/
def encode (cs : List Char) : List Char :=
  '"' :: cs.flatMap encodeChar ++ ['"']

/-! ## Reading -/

/-- The value of a hexadecimal digit. -/
def hexValue? (c : Char) : Option Nat :=
  if c.isDigit then some (c.toNat - '0'.toNat)
  else if 'a' ≤ c ∧ c ≤ 'f' then some (c.toNat - 'a'.toNat + 10)
  else if 'A' ≤ c ∧ c ≤ 'F' then some (c.toNat - 'A'.toNat + 10)
  else none

/-- The fault of four hexadecimal digits that are not there: there are less than four bytes, or one
of the first characters is no digit. -/
def digitFault (cs : List Char) : Fault :=
  if (Text.encodeUtf8 cs).length < 4 then ⟨.endInString, []⟩
  else ⟨.invalidEscape, cs.dropWhile fun c => (hexValue? c).isSome⟩

/-- The number of four hexadecimal digits. -/
def readUnit (cs : List Char) : Except Fault (Nat × List Char) :=
  match cs with
  | a :: b :: c :: d :: rest =>
    match hexValue? a, hexValue? b, hexValue? c, hexValue? d with
    | some w, some x, some y, some z => .ok (((w * 16 + x) * 16 + y) * 16 + z, rest)
    | _, _, _, _ => .error (digitFault cs)
  | _ => .error (digitFault cs)

/-- The text from the last digit of an escape on. -/
def lastDigit (cs : List Char) : List Char :=
  cs.drop 3

/-- A leading half of a surrogate pair. -/
def isLeading (n : Nat) : Bool :=
  0xD800 ≤ n && n ≤ 0xDBFF

/-- A trailing half of a surrogate pair. -/
def isTrailing (n : Nat) : Bool :=
  0xDC00 ≤ n && n ≤ 0xDFFF

/-- The character of a surrogate pair. -/
def ofPair (lead trail : Nat) : Char :=
  Char.ofNat (0x10000 + (lead - 0xD800) * 0x400 + (trail - 0xDC00))

/-- The trailing half that has to follow a leading one. -/
def readTrail (lead : Nat) (cs : List Char) : Except Fault (Char × List Char) :=
  match cs with
  | '\\' :: 'u' :: ds =>
    match readUnit ds with
    | .error f => .error f
    | .ok (n, rest) =>
      if isTrailing n then .ok (ofPair lead n, rest)
      else .error ⟨.loneSurrogate, lastDigit ds⟩
  | ['\\'] => .error ⟨.endInString, []⟩
  | [] => .error ⟨.endInString, []⟩
  | '\\' :: ds => .error ⟨.hexEscapeEnd, ds⟩
  | ds => .error ⟨.hexEscapeEnd, ds⟩

/-- The character of an escape by its number. -/
def readNumbered (cs : List Char) : Except Fault (Char × List Char) :=
  match readUnit cs with
  | .error f => .error f
  | .ok (n, rest) =>
    if isTrailing n then .error ⟨.loneSurrogate, lastDigit cs⟩
    else if isLeading n then readTrail n rest
    else .ok (Char.ofNat n, rest)

/-- The character of an escape, from behind the backslash. -/
def readEscape (cs : List Char) : Except Fault (Char × List Char) :=
  match cs with
  | [] => .error ⟨.endInString, []⟩
  | c :: rest =>
    if c = '"' ∨ c = '\\' ∨ c = '/' then .ok (c, rest)
    else if c = 'b' then .ok ('\x08', rest)
    else if c = 'f' then .ok ('\x0c', rest)
    else if c = 'n' then .ok ('\n', rest)
    else if c = 'r' then .ok ('\r', rest)
    else if c = 't' then .ok ('\t', rest)
    else if c = 'u' then readNumbered rest
    else .error ⟨.invalidEscape, c :: rest⟩

theorem length_readUnit {cs rest : List Char} {n : Nat} (h : readUnit cs = .ok (n, rest)) :
    rest.length < cs.length := by
  unfold readUnit at h
  split at h
  · split at h
    · simp at h
      simp only [h.2.symm, List.length_cons]
      omega
    · simp at h
  · simp at h

theorem length_readTrail {k : Nat} {cs rest : List Char} {c : Char}
    (h : readTrail k cs = .ok (c, rest)) : rest.length < cs.length := by
  unfold readTrail at h
  split at h
  · split at h
    · simp at h
    · next hu =>
      split at h <;> simp at h
      have := length_readUnit hu
      obtain ⟨_, rfl⟩ := h
      simp; omega
  all_goals simp at h

theorem length_readEscape {cs rest : List Char} {c : Char} (h : readEscape cs = .ok (c, rest)) :
    rest.length < cs.length := by
  unfold readEscape at h
  split at h
  · simp at h
  · repeat' split at h
    all_goals try simp at h
    all_goals try (obtain ⟨_, rfl⟩ := h; simp)
    unfold readNumbered at h
    split at h
    · simp at h
    · next hu =>
      have hl := length_readUnit hu
      split at h
      · simp at h
      · split at h
        · have := length_readTrail h
          simp; omega
        · simp at h
          obtain ⟨_, rfl⟩ := h
          simp; omega

/-- A reading with one more character in front. -/
def consRead (c : Char) :
    Except Fault (List Char × List Char) → Except Fault (List Char × List Char)
  | .ok (cs, rest) => .ok (c :: cs, rest)
  | .error f => .error f

/-- The characters of a string, from behind its first quote. -/
def readString (cs : List Char) : Except Fault (List Char × List Char) :=
  match cs with
  | [] => .error ⟨.endInString, []⟩
  | c :: cs =>
    if c = '"' then .ok ([], cs)
    else if c = '\\' then
      match _h : readEscape cs with
      | .error f => .error f
      | .ok (x, rest) => consRead x (readString rest)
    else if c.toNat < 0x20 then .error ⟨.controlCharacter, c :: cs⟩
    else consRead c (readString cs)
termination_by cs.length
decreasing_by
  · have := length_readEscape _h
    simp; omega
  · simp

end PerfLedger.Json
