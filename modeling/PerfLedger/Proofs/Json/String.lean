import PerfLedger.Json.Text

/-!
# Written strings

A string may be written in many ways: a character stands for itself, or it is escaped by a letter,
by its number in four hexadecimal digits of either case, or by the numbers of two surrogates
(`Writes`). The way in which the printer writes it is one of these (`writes_encode`), and whichever
was chosen, the string is read back (`readString_writes`).
-/

namespace PerfLedger.Json

/-! ## Ways to write a string -/

/-- A hexadecimal digit of either case. -/
def IsHexDigit (n : Nat) (c : Char) : Prop :=
  "0123456789abcdef".toList[n]? = some c ∨ "0123456789ABCDEF".toList[n]? = some c

/-- Four hexadecimal digits of a number, the highest first. -/
inductive WritesUnit : Nat → List Char → Prop where
  | digits {w x y z : Nat} {a b c d : Char} (first : IsHexDigit w a) (second : IsHexDigit x b)
      (third : IsHexDigit y c) (fourth : IsHexDigit z d) :
      WritesUnit (((w * 16 + x) * 16 + y) * 16 + z) [a, b, c, d]

/-- The letters that escape a character, each with the character. -/
def letterEscapes : List (Char × Char) :=
  [('"', '"'), ('\\', '\\'), ('/', '/'), ('b', '\x08'), ('f', '\x0c'), ('n', '\n'), ('r', '\r'),
   ('t', '\t')]

/-- A character in a string. -/
inductive WritesChar : Char → List Char → Prop where
  | itself {c : Char} (control : 0x20 ≤ c.toNat) (quote : c ≠ '"') (backslash : c ≠ '\\') :
      WritesChar c [c]
  | letter {e c : Char} (escape : (e, c) ∈ letterEscapes) : WritesChar c ['\\', e]
  | number {c : Char} {ds : List Char} (digits : WritesUnit c.toNat ds) :
      WritesChar c ('\\' :: 'u' :: ds)
  | pair {c : Char} {lead trail : Nat} {ds es : List Char}
      (leading : 0xD800 ≤ lead ∧ lead ≤ 0xDBFF) (trailing : 0xDC00 ≤ trail ∧ trail ≤ 0xDFFF)
      (code : c.toNat = 0x10000 + (lead - 0xD800) * 0x400 + (trail - 0xDC00))
      (first : WritesUnit lead ds) (second : WritesUnit trail es) :
      WritesChar c ('\\' :: 'u' :: ds ++ '\\' :: 'u' :: es)

/-- The characters of a string between its quotes, each in some way. -/
inductive Writes : List Char → List Char → Prop where
  | nil : Writes [] []
  | cons {c : Char} {cs w ws : List Char} (head : WritesChar c w) (tail : Writes cs ws) :
      Writes (c :: cs) (w ++ ws)

/-! ## Reading -/

variable {c : Char} {cs w rest : List Char} {n : Nat}

theorem hexValue_of_isHexDigit (h : IsHexDigit n c) : hexValue? c = some n := by
  have hall (ds : List Char) (hds : ∀ p ∈ ds.zipIdx, hexValue? p.1 = some p.2)
      (h : ds[n]? = some c) : hexValue? c = some n :=
    hds (c, n) (List.mem_zipIdx_iff_getElem?.mpr h)
  rcases h with h | h
  · exact hall _ (by decide) h
  · exact hall _ (by decide) h

theorem readUnit_of_writesUnit (h : WritesUnit n w) (rest : List Char) :
    readUnit (w ++ rest) = .ok (n, rest) := by
  obtain ⟨ha, hb, hc, hd⟩ := h
  simp only [List.cons_append, List.nil_append, readUnit, hexValue_of_isHexDigit ha,
    hexValue_of_isHexDigit hb, hexValue_of_isHexDigit hc, hexValue_of_isHexDigit hd]

/-- The number of a character is not that of a surrogate. -/
theorem not_surrogate (c : Char) : isTrailing c.toNat = false ∧ isLeading c.toNat = false := by
  have hvalid : c.toNat.isValidChar := c.valid
  unfold Nat.isValidChar at hvalid
  simp only [isTrailing, isLeading, Bool.and_eq_false_iff, decide_eq_false_iff_not]
  omega

theorem readNumbered_number (h : WritesUnit c.toNat w) (rest : List Char) :
    readNumbered (w ++ rest) = .ok (c, rest) := by
  obtain ⟨htrail, hlead⟩ := not_surrogate c
  simp only [readNumbered, readUnit_of_writesUnit h, htrail, hlead, Bool.false_eq_true, if_false,
    Char.ofNat_toNat]

theorem readNumbered_pair {lead trail : Nat} {ds es : List Char}
    (leading : 0xD800 ≤ lead ∧ lead ≤ 0xDBFF) (trailing : 0xDC00 ≤ trail ∧ trail ≤ 0xDFFF)
    (code : c.toNat = 0x10000 + (lead - 0xD800) * 0x400 + (trail - 0xDC00))
    (first : WritesUnit lead ds) (second : WritesUnit trail es) (rest : List Char) :
    readNumbered (ds ++ '\\' :: 'u' :: es ++ rest) = .ok (c, rest) := by
  have hlead : isTrailing lead = false := by
    simp only [isTrailing, Bool.and_eq_false_iff, decide_eq_false_iff_not]
    omega
  have hlead' : isLeading lead = true := by simp [isLeading, leading]
  have htrail : isTrailing trail = true := by simp [isTrailing, trailing]
  have hchar : ofPair lead trail = c := by
    rw [ofPair, ← code, Char.ofNat_toNat]
  rw [List.append_assoc]
  simp only [readNumbered, readUnit_of_writesUnit first, List.cons_append, hlead, hlead', readTrail,
    readUnit_of_writesUnit second, htrail, hchar, Bool.false_eq_true, if_false, if_true]

theorem readEscape_letter {e : Char} (h : (e, c) ∈ letterEscapes) (rest : List Char) :
    readEscape (e :: rest) = .ok (c, rest) := by
  simp only [letterEscapes, List.mem_cons, Prod.mk.injEq, List.not_mem_nil, or_false] at h
  rcases h with ⟨rfl, rfl⟩ | ⟨rfl, rfl⟩ | ⟨rfl, rfl⟩ | ⟨rfl, rfl⟩ | ⟨rfl, rfl⟩ | ⟨rfl, rfl⟩ |
    ⟨rfl, rfl⟩ | ⟨rfl, rfl⟩ <;> rfl

theorem readEscape_number (w : List Char) : readEscape ('u' :: w) = readNumbered w :=
  rfl

theorem readString_escape (h : readEscape w = .ok (c, rest)) :
    readString ('\\' :: w) = consRead c (readString rest) := by
  rw [readString, if_neg (by decide), if_pos rfl]
  split
  · next h' => exact absurd (h.symm.trans h') (by simp)
  · next h' =>
    obtain ⟨rfl, rfl⟩ := Prod.mk.inj (Except.ok.inj (h.symm.trans h'))
    rfl

/-- A character is read back in whatever way it is written. -/
theorem readString_writesChar (h : WritesChar c w) (rest : List Char) :
    readString (w ++ rest) = consRead c (readString rest) := by
  cases h with
  | itself control quote backslash =>
    rw [List.singleton_append, readString, if_neg quote, if_neg backslash, if_neg (by omega)]
  | letter escape => exact readString_escape (readEscape_letter escape rest)
  | number digits =>
    exact readString_escape ((readEscape_number _).trans (readNumbered_number digits rest))
  | pair leading trailing code first second =>
    exact readString_escape ((readEscape_number _).trans
      (readNumbered_pair leading trailing code first second rest))

/-- **A string is read back in whatever way it is written.** -/
theorem readString_writes (h : Writes cs w) (rest : List Char) :
    readString (w ++ '"' :: rest) = .ok (cs, rest) := by
  induction h with
  | nil => rw [List.nil_append, readString, if_pos rfl]
  | cons head _ ih => rw [List.append_assoc, readString_writesChar head, ih, consRead]

/-! ## Printing -/

theorem isHexDigit_hexDigit (h : n < 16) : IsHexDigit n (Text.hexDigit n) := by
  have hall : ∀ n < 16, "0123456789abcdef".toList[n]? = some (Text.hexDigit n) := by decide
  exact .inl (hall n h)

theorem writesUnit_hexDigits (h : n < 0x10000) : WritesUnit n (Text.hexDigits 4 n) := by
  have hn : n = ((n / 16 / 16 / 16 % 16 * 16 + n / 16 / 16 % 16) * 16 + n / 16 % 16) * 16
      + n % 16 := by omega
  have := WritesUnit.digits (isHexDigit_hexDigit (Nat.mod_lt (n / 16 / 16 / 16) (by decide)))
    (isHexDigit_hexDigit (Nat.mod_lt (n / 16 / 16) (by decide)))
    (isHexDigit_hexDigit (Nat.mod_lt (n / 16) (by decide)))
    (isHexDigit_hexDigit (Nat.mod_lt n (by decide)))
  rw [← hn] at this
  exact this

theorem writesChar_encodeChar (c : Char) : WritesChar c (encodeChar c) := by
  unfold encodeChar
  split
  · next h =>
    rcases h with rfl | rfl
    · exact .letter (by decide)
    · exact .letter (by decide)
  · next h =>
    obtain ⟨quote, backslash⟩ := not_or.mp h
    split
    · next hb => exact .letter (by rw [hb]; decide)
    split
    · next ht => exact .letter (by rw [ht]; decide)
    split
    · next hn => exact .letter (by rw [hn]; decide)
    split
    · next hf => exact .letter (by rw [hf]; decide)
    split
    · next hr => exact .letter (by rw [hr]; decide)
    split
    · exact .number (writesUnit_hexDigits (by omega))
    · exact .itself (by omega) quote backslash

/-- **What the printer writes is the string.** -/
theorem writes_encode (cs : List Char) : Writes cs (cs.flatMap encodeChar) := by
  induction cs with
  | nil => exact .nil
  | cons c cs ih =>
    rw [List.flatMap_cons]
    exact .cons (writesChar_encodeChar c) ih

end PerfLedger.Json
