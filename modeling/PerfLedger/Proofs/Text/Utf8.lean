import PerfLedger.Text.Utf8

/-!
# UTF-8, read back

Every text is read back from its bytes. A character of several bytes begins with a byte that tells
how many follow, and which values the second one may have: those that are left out stand for no
character, or for one that has a shorter form.
-/

namespace PerfLedger.Text

variable {bs tail : List UInt8} {acc : List Char} {position k : Nat}

theorem toNat_ofNat_byte {n : Nat} (h : n < 256) : (UInt8.ofNat n).toNat = n := by
  rw [UInt8.toNat_ofNat']
  exact Nat.mod_eq_of_lt h

/-! ## Bytes -/

theorem readContinuation_cons {low high good code : Nat} {b : UInt8} (hlow : low ≤ b.toNat)
    (hhigh : b.toNat ≤ high) (k : Nat) (bs : List UInt8) :
    readContinuation low high good code (k + 1) (b :: bs)
      = readContinuation 0x80 0xBF (good + 1) (code * 64 + (b.toNat - 0x80)) k bs := by
  rw [readContinuation, if_pos ⟨hlow, hhigh⟩]

/-- A byte behind the second one, which adds six bits. -/
theorem readContinuation_ofNat {good code : Nat} (n k : Nat) (bs : List UInt8) :
    readContinuation 0x80 0xBF good code (k + 1) (UInt8.ofNat (n % 64 + 128) :: bs)
      = readContinuation 0x80 0xBF (good + 1) (code * 64 + n % 64) k bs := by
  have hbyte : (UInt8.ofNat (n % 64 + 128)).toNat = n % 64 + 128 := toNat_ofNat_byte (by omega)
  rw [readContinuation_cons (by omega) (by omega), hbyte, Nat.add_sub_cancel]

/-- The bytes that belong to the last character are left out. -/
theorem decodeUtf8From_skip (htail : tail.length = k) :
    decodeUtf8From position k acc (tail ++ bs) = decodeUtf8From (position + k) 0 acc bs := by
  induction tail generalizing position k with
  | nil =>
    cases htail
    rfl
  | cons b tail ih =>
    cases htail
    rw [List.cons_append, List.length_cons]
    simp only [decodeUtf8From]
    rw [ih rfl, Nat.add_assoc, Nat.add_comm 1]

/-- A character of several bytes. -/
theorem decodeUtf8From_lead {b : UInt8} {low high bits code : Nat} (hb : 0x80 ≤ b.toNat)
    (hshape : leadShape? b.toNat = some (k, low, high, bits)) (htail : tail.length = k)
    (hread : readContinuation low high 0 bits k (tail ++ bs) = .complete code) :
    decodeUtf8From position 0 acc (b :: (tail ++ bs))
      = decodeUtf8From (position + 1 + k) 0 (Char.ofNat code :: acc) bs := by
  rw [decodeUtf8From, if_neg (by omega)]
  simp only [hshape, hread]
  exact decodeUtf8From_skip htail

/-! ## Characters -/

/-- The first byte of a character of three bytes, and what it demands of the second one. -/
theorem leadShape_three {n : Nat} (hlow : 0x800 ≤ n) (hhigh : n < 0x10000)
    (hvalid : n < 0xD800 ∨ 0xDFFF < n) :
    ∃ low high, leadShape? (n / 4096 % 16 + 224) = some (2, low, high, n / 4096) ∧
      low ≤ n / 64 % 64 + 128 ∧ n / 64 % 64 + 128 ≤ high := by
  have hbits : n / 4096 % 16 = n / 4096 := by omega
  unfold leadShape?
  rw [hbits, if_neg (by omega)]
  by_cases hfirst : n / 4096 = 0
  · exact ⟨0xA0, 0xBF, by simp [hfirst], by omega, by omega⟩
  rw [if_neg (by omega)]
  by_cases hsurrogate : n / 4096 = 13
  · exact ⟨0x80, 0x9F, by simp [hsurrogate], by omega, by omega⟩
  rw [if_neg (by omega), if_pos (by omega)]
  exact ⟨0x80, 0xBF, by simp, by omega, by omega⟩

/-- The first byte of a character of four bytes, and what it demands of the second one. -/
theorem leadShape_four {n : Nat} (hlow : 0x10000 ≤ n) (hhigh : n < 0x110000) :
    ∃ low high, leadShape? (n / 262144 % 8 + 240) = some (3, low, high, n / 262144) ∧
      low ≤ n / 4096 % 64 + 128 ∧ n / 4096 % 64 + 128 ≤ high := by
  have hbits : n / 262144 % 8 = n / 262144 := by omega
  unfold leadShape?
  rw [hbits, if_neg (by omega), if_neg (by omega), if_neg (by omega), if_neg (by omega)]
  by_cases hfirst : n / 262144 = 0
  · exact ⟨0x90, 0xBF, by simp [hfirst], by omega, by omega⟩
  rw [if_neg (by omega)]
  by_cases hlast : n / 262144 = 4
  · exact ⟨0x80, 0x8F, by simp [hlast], by omega, by omega⟩
  rw [if_neg (by omega), if_pos (by omega)]
  exact ⟨0x80, 0xBF, by simp, by omega, by omega⟩

section width

variable {n : Nat}

theorem decodeUtf8From_one (h : n < 0x80) :
    decodeUtf8From position 0 acc (UInt8.ofNat n :: bs)
      = decodeUtf8From (position + 1) 0 (Char.ofNat n :: acc) bs := by
  have hbyte : (UInt8.ofNat n).toNat = n := toNat_ofNat_byte (by omega)
  rw [decodeUtf8From, hbyte, if_pos h]

theorem decodeUtf8From_two (hlow : 0x80 ≤ n) (hhigh : n < 0x800) :
    decodeUtf8From position 0 acc
        (UInt8.ofNat (n / 64 % 32 + 192) :: ([UInt8.ofNat (n % 64 + 128)] ++ bs))
      = decodeUtf8From (position + 2) 0 (Char.ofNat n :: acc) bs := by
  have hbyte : (UInt8.ofNat (n / 64 % 32 + 192)).toNat = n / 64 % 32 + 192 :=
    toNat_ofNat_byte (by omega)
  have hshape : leadShape? (n / 64 % 32 + 192) = some (1, 0x80, 0xBF, n / 64) := by
    have hbits : n / 64 % 32 = n / 64 := by omega
    rw [leadShape?, hbits, if_pos (by omega), Nat.add_sub_cancel]
  have hread : readContinuation 0x80 0xBF 0 (n / 64) 1 ([UInt8.ofNat (n % 64 + 128)] ++ bs)
      = .complete n := by
    rw [List.singleton_append, readContinuation_ofNat, readContinuation]
    congr 1
    omega
  exact decodeUtf8From_lead (by omega) (by rw [hbyte]; exact hshape) rfl hread

theorem decodeUtf8From_three (hlow : 0x800 ≤ n) (hhigh : n < 0x10000)
    (hvalid : n < 0xD800 ∨ 0xDFFF < n) :
    decodeUtf8From position 0 acc (UInt8.ofNat (n / 4096 % 16 + 224) ::
        ([UInt8.ofNat (n / 64 % 64 + 128), UInt8.ofNat (n % 64 + 128)] ++ bs))
      = decodeUtf8From (position + 3) 0 (Char.ofNat n :: acc) bs := by
  obtain ⟨low, high, hshape, hsecond⟩ := leadShape_three hlow hhigh hvalid
  have hbyte : (UInt8.ofNat (n / 4096 % 16 + 224)).toNat = n / 4096 % 16 + 224 :=
    toNat_ofNat_byte (by omega)
  have hnext : (UInt8.ofNat (n / 64 % 64 + 128)).toNat = n / 64 % 64 + 128 :=
    toNat_ofNat_byte (by omega)
  have hread : readContinuation low high 0 (n / 4096) 2
      ([UInt8.ofNat (n / 64 % 64 + 128), UInt8.ofNat (n % 64 + 128)] ++ bs) = .complete n := by
    rw [List.cons_append, readContinuation_cons (by omega) (by omega), List.singleton_append,
      readContinuation_ofNat, readContinuation, hnext]
    congr 1
    omega
  exact decodeUtf8From_lead (by omega) (by rw [hbyte]; exact hshape) rfl hread

theorem decodeUtf8From_four (hlow : 0x10000 ≤ n) (hhigh : n < 0x110000) :
    decodeUtf8From position 0 acc (UInt8.ofNat (n / 262144 % 8 + 240) ::
        ([UInt8.ofNat (n / 4096 % 64 + 128), UInt8.ofNat (n / 64 % 64 + 128),
          UInt8.ofNat (n % 64 + 128)] ++ bs))
      = decodeUtf8From (position + 4) 0 (Char.ofNat n :: acc) bs := by
  obtain ⟨low, high, hshape, hsecond⟩ := leadShape_four hlow hhigh
  have hbyte : (UInt8.ofNat (n / 262144 % 8 + 240)).toNat = n / 262144 % 8 + 240 :=
    toNat_ofNat_byte (by omega)
  have hnext : (UInt8.ofNat (n / 4096 % 64 + 128)).toNat = n / 4096 % 64 + 128 :=
    toNat_ofNat_byte (by omega)
  have hread : readContinuation low high 0 (n / 262144) 3 ([UInt8.ofNat (n / 4096 % 64 + 128),
      UInt8.ofNat (n / 64 % 64 + 128), UInt8.ofNat (n % 64 + 128)] ++ bs) = .complete n := by
    rw [List.cons_append, readContinuation_cons (by omega) (by omega), List.cons_append,
      readContinuation_ofNat, List.singleton_append, readContinuation_ofNat, readContinuation,
      hnext]
    congr 1
    omega
  exact decodeUtf8From_lead (by omega) (by rw [hbyte]; exact hshape) rfl hread

end width

/-- **A character is read back from its bytes.** -/
theorem decodeUtf8From_char (c : Char) (bs : List UInt8) (position : Nat) (acc : List Char) :
    ∃ next, decodeUtf8From position 0 acc (String.utf8EncodeChar c ++ bs)
      = decodeUtf8From next 0 (c :: acc) bs := by
  have hvalid : c.val.toNat.isValidChar := c.valid
  unfold Nat.isValidChar at hvalid
  have hc : Char.ofNat c.val.toNat = c := c.ofNat_toNat
  simp only [String.utf8EncodeChar]
  generalize c.val.toNat = n at hvalid hc
  rw [← hc]
  split
  · exact ⟨position + 1, decodeUtf8From_one (by omega)⟩
  split
  · exact ⟨position + 2, decodeUtf8From_two (by omega) (by omega)⟩
  split
  · exact ⟨position + 3, decodeUtf8From_three (by omega) (by omega) (by omega)⟩
  · exact ⟨position + 4, decodeUtf8From_four (by omega) (by omega)⟩

/-- **Every text is read back from its bytes.** -/
theorem decodeUtf8_encodeUtf8 (cs : List Char) : decodeUtf8 (encodeUtf8 cs) = .ok cs := by
  have hfrom (cs : List Char) : ∀ position acc,
      decodeUtf8From position 0 acc (encodeUtf8 cs) = .ok (acc.reverse ++ cs) := by
    induction cs with
    | nil => simp [encodeUtf8, decodeUtf8From]
    | cons c cs ih =>
      intro position acc
      obtain ⟨next, hnext⟩ := decodeUtf8From_char c (encodeUtf8 cs) position acc
      have hcons : encodeUtf8 (c :: cs) = String.utf8EncodeChar c ++ encodeUtf8 cs := rfl
      rw [hcons, hnext, ih]
      simp
  exact hfrom cs 0 []

end PerfLedger.Text
