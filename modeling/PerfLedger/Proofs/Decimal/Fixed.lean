import PerfLedger.Proofs.Decimal.Text

/-!
# The size of the fixed form

A fixed form has a digit for each place behind the point and a zero for each power of ten, so that
one that is not enormous has an exponent that numerals can have, and is read back
(`parse_fixed_of_length`). The exponent of a zero may be larger, but then it is not written.

The decimal that is read back has the same fixed form again (`fixed_positional`).
-/

namespace PerfLedger

namespace Text

/-- A power of ten is written as zeros. -/
theorem digits_mul_pow {n : Nat} (hn : 0 < n) (k : Nat) :
    digits (n * 10 ^ k) = digits n ++ List.replicate k '0' := by
  induction k with
  | zero => rw [Nat.pow_zero, Nat.mul_one, List.replicate_zero, List.append_nil]
  | succ k ih =>
    have hpos : 0 < n * 10 ^ k := Nat.mul_pos hn (Nat.pow_pos (by decide))
    have hzero : Nat.toDigits 10 0 = ['0'] := rfl
    have hstep := Nat.toDigits_append_toDigits (b := 10) (d := 0) (by decide) hpos (by decide)
    rw [hzero, Nat.add_zero] at hstep
    rw [Nat.pow_succ, ← Nat.mul_assoc, Nat.mul_comm _ 10, digits, ← hstep, ← digits, ih,
      List.append_assoc, ← List.replicate_succ']

theorem length_digits (n : Nat) : (digits n).length = Decimal.digitCount n := by
  have hlen : 0 < (digits n).length := List.length_pos_iff.mpr (digits_ne_nil n)
  refine Nat.le_antisymm ?_ ?_
  · exact (length_digits_le_iff (Decimal.digitCount_pos n)).mpr (Decimal.lt_pow_digitCount n)
  · rcases Nat.eq_zero_or_pos n with rfl | hn
    · rw [Decimal.digitCount]
      exact hlen
    · exact (Decimal.digitCount_le_iff hn).mpr ((length_digits_le_iff hlen).mp (Nat.le_refl _))

end Text

namespace Decimal

open PerfLedger.Text

/-! ## Lengths -/

/-- A point takes no digits away, and there is one digit at least for each place. -/
theorem length_pointed_ge (ds : List Char) (places : Nat) :
    ds.length ≤ (pointed ds places).length ∧ places ≤ (pointed ds places).length := by
  unfold pointed
  split
  · next h => exact ⟨Nat.le_refl _, by omega⟩
  · simp only [List.length_append, List.length_cons, List.length_take, List.length_drop,
      List.length_replicate]
    omega

/-- The exponent of a number whose fixed form is not too long can be written in a numeral, unless
it is not written in the form. -/
theorem inRange_of_length {s : Bool} {n : Nat} {e : Int} (hwritten : n ≠ 0 ∨ e ≤ 0)
    (h : ((fixed (.finite s n e)).length : Int) ≤ numeralMax) : inRange n e = true := by
  have hcount := digitCount_pos n
  simp only [fixed, String.length_ofList, List.length_append] at h
  simp only [inRange, Bool.and_eq_true, decide_eq_true_eq]
  have hmax : numeralMax = 999999999999999999 := rfl
  have hmin : numeralMin = -1999999999999999997 := rfl
  by_cases hn : n = 0
  · obtain ⟨-, hplaces⟩ := length_pointed_ge (digits n) (-e).toNat
    rw [if_pos hn] at h
    rw [if_pos hn]
    omega
  · obtain ⟨hdigits, hplaces⟩ :=
      length_pointed_ge (digits n ++ List.replicate e.toNat '0') (-e).toNat
    rw [List.length_append, List.length_replicate, length_digits] at hdigits
    rw [if_neg hn] at h
    rw [if_neg hn]
    omega

/-! ## The fixed form -/

theorem fixed_of_pos (s : Bool) {n : Nat} (hn : 0 < n) {e : Int} (he : 0 ≤ e) :
    fixed (.finite s n e) =
      String.ofList (signChars s ++ (digits n ++ List.replicate e.toNat '0')) := by
  have hplaces : (-e).toNat = 0 := by omega
  simp only [fixed, if_neg (Nat.ne_of_gt hn), hplaces, pointed, if_true]

theorem fixed_zero_of_nonneg (s : Bool) {e : Int} (he : 0 ≤ e) :
    fixed (.finite s 0 e) = fixed (.finite s 0 0) := by
  have hplaces : (-e).toNat = 0 := by omega
  simp only [fixed, hplaces, if_true]
  rfl

/-- The fixed form does not tell a positive exponent from zeros. -/
theorem fixed_positional (d : Decimal) : d.positional.fixed = d.fixed := by
  cases d with
  | infinite s => rfl
  | nan s q p => rfl
  | finite s n e =>
    by_cases he : e ≤ 0
    · rw [positional, if_pos he]
    · rw [positional, if_neg he]
      rcases Nat.eq_zero_or_pos n with rfl | hn
      · rw [Nat.zero_mul, fixed_zero_of_nonneg s (e := e) (by omega)]
      · have hpos : 0 < n * 10 ^ e.toNat := Nat.mul_pos hn (Nat.pow_pos (by decide))
        rw [fixed_of_pos s hpos (Int.le_refl 0), fixed_of_pos s hn (by omega), digits_mul_pow hn,
          Int.toNat_zero, List.replicate_zero, List.append_nil]

/-- **A fixed form that is not too long is read back**, whatever the exponent is. -/
theorem parse_fixed_of_length {d : Decimal} (h : (d.fixed.length : Int) ≤ numeralMax) :
    parse d.fixed = .ok d.positional := by
  cases d with
  | infinite s => exact parse_fixed trivial
  | nan s q p => exact parse_fixed trivial
  | finite s n e =>
    by_cases hwritten : n ≠ 0 ∨ e ≤ 0
    · exact parse_fixed (inRange_of_length hwritten h)
    · -- The exponent of a zero is not written, so it does not matter how large it is.
      obtain ⟨rfl, he⟩ : n = 0 ∧ 0 < e := by omega
      have hpositional : positional (.finite s 0 e) = .finite s 0 0 := by
        rw [positional, if_neg (by omega), Nat.zero_mul]
      rw [← fixed_positional, hpositional]
      have hrange : inRange 0 0 = true := by decide
      exact parse_fixed (d := .finite s 0 0) hrange

end Decimal

end PerfLedger
