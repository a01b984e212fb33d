import PerfLedger.Proofs.Decimal.Congr
import PerfLedger.Proofs.Decimal.Nearest

/-!
# The value of a decimal

A finite decimal stands for a rational number (`toRat`), in which zeros at the end do not count
(`Same.toRat_eq`). Decimals are compared as their values are (`compareNumbers_eq`), and the digits
of a coefficient say where its value begins (`log_coefficient`).
-/

namespace PerfLedger.Decimal

/-- A number that is neither infinite nor a not-a-number. -/
def IsFinite : Decimal → Prop
  | .finite .. => True
  | _ => False

/-- A magnitude with its sign. -/
def signed (negative : Bool) (x : ℚ) : ℚ :=
  if negative then -x else x

/-- The value of a finite number. Special numbers have none and are given zero. -/
def toRat : Decimal → ℚ
  | .finite s n e => signed s (n * 10 ^ e)
  | _ => 0

theorem toRat_finite (s : Bool) (n : Nat) (e : Int) :
    toRat (.finite s n e) = signed s (n * 10 ^ e) := rfl

theorem toRat_ofNat (n : Nat) : toRat (ofNat n) = n := by
  simp [ofNat, toRat_finite, signed]

theorem IsFinite.exists_eq {d : Decimal} (h : d.IsFinite) : ∃ s n e, d = .finite s n e := by
  cases d with
  | finite s n e => exact ⟨s, n, e, rfl⟩
  | infinite s => exact h.elim
  | nan s q p => exact h.elim

theorem IsFinite.isNaN_eq {d : Decimal} (h : d.IsFinite) : d.isNaN = false := by
  obtain ⟨s, n, e, rfl⟩ := h.exists_eq
  rfl

theorem IsFinite.isSignaling_eq {d : Decimal} (h : d.IsFinite) : d.isSignaling = false := by
  obtain ⟨s, n, e, rfl⟩ := h.exists_eq
  rfl

/-! ## Signs -/

theorem abs_signed (s : Bool) (x : ℚ) : |signed s x| = |x| := by
  cases s with
  | true => exact abs_neg x
  | false => rfl

theorem signed_zero (s : Bool) : signed s 0 = 0 := by
  cases s with
  | true => exact neg_zero
  | false => rfl

theorem signed_xor (s t : Bool) (x y : ℚ) : signed (s ^^ t) (x * y) = signed s x * signed t y := by
  cases s <;> cases t <;> simp [signed]

theorem nearest_signed (s : Bool) (x : ℚ) : nearest (signed s x) = signed s (nearest x) := by
  cases s with
  | true => exact nearest_neg x
  | false => rfl

theorem coefficient_nonneg (n : Nat) (e : Int) : (0 : ℚ) ≤ n * 10 ^ e :=
  mul_nonneg (Nat.cast_nonneg n) (ten_zpow_pos e).le

theorem coefficient_pos {n : Nat} (h : 0 < n) (e : Int) : (0 : ℚ) < n * 10 ^ e :=
  mul_pos (Nat.cast_pos.mpr h) (ten_zpow_pos e)

theorem abs_toRat_finite (s : Bool) (n : Nat) (e : Int) :
    |toRat (.finite s n e)| = n * 10 ^ e := by
  rw [toRat_finite, abs_signed, abs_of_nonneg (coefficient_nonneg n e)]

theorem toRat_negate (d : Decimal) : d.negate.toRat = -d.toRat := by
  cases d with
  | finite s n e => cases s <;> simp [negate, toRat_finite, signed]
  | infinite s => exact neg_zero.symm
  | nan s q p => exact neg_zero.symm

/-! ## One value -/

/-- A coefficient that is seen at a lower exponent. -/
theorem coefficient_lower (n : Nat) {e l : Int} (h : l ≤ e) :
    (n : ℚ) * 10 ^ e = ((n * 10 ^ (e - l).toNat : Nat) : ℚ) * 10 ^ l := by
  rw [ten_zpow_eq h]
  push_cast
  ring

theorem sameValue_iff_eq {n m : Nat} {e f : Int} :
    SameValue n e m f ↔ (n : ℚ) * 10 ^ e = m * 10 ^ f := by
  obtain ⟨l, hl⟩ : ∃ l, l = min e f := ⟨_, rfl⟩
  have he : l ≤ e := by omega
  have hf : l ≤ f := by omega
  rw [sameValue_iff he hf, coefficient_lower n he, coefficient_lower m hf,
    mul_left_inj' (ten_zpow_pos l).ne', Nat.cast_inj]

theorem Same.toRat_eq {a b : Decimal} (h : Same a b) : a.toRat = b.toRat := by
  rcases h.finite_or_eq with ⟨s, n, e, m, f, rfl, rfl, hv⟩ | rfl
  · rw [toRat_finite, toRat_finite, sameValue_iff_eq.mp hv]
  · rfl

theorem Same.isFinite {a b : Decimal} (h : Same a b) (ha : a.IsFinite) : b.IsFinite := by
  rcases h.finite_or_eq with ⟨s, n, e, m, f, rfl, rfl, -⟩ | rfl
  · trivial
  · exact ha

/-- The leading digit of a coefficient. -/
theorem log_coefficient {n : Nat} (hn : 0 < n) (e : Int) :
    Int.log 10 ((n : ℚ) * 10 ^ e) = e + digitCount n - 1 := by
  rw [log_mul_zpow (Nat.cast_pos.mpr hn), Int.log_natCast, digitCount_eq_log]
  push_cast
  ring

/-! ## Order -/

theorem compare_neg_neg (x y : ℚ) : compare (-x) (-y) = compare y x := by
  rcases lt_trichotomy x y with h | rfl | h
  · rw [compare_gt_iff_gt.mpr (neg_lt_neg h), compare_gt_iff_gt.mpr h]
  · rw [compare_eq_iff_eq.mpr rfl, compare_eq_iff_eq.mpr rfl]
  · rw [compare_lt_iff_lt.mpr (neg_lt_neg h), compare_lt_iff_lt.mpr h]

theorem compare_natCast_mul (n m : Nat) {x : ℚ} (hx : 0 < x) :
    compare ((n : ℚ) * x) (m * x) = compare n m := by
  have cast {i j : Nat} (h : i < j) : (i : ℚ) * x < j * x :=
    mul_lt_mul_of_pos_right (by exact_mod_cast h) hx
  rcases lt_trichotomy n m with h | rfl | h
  · rw [compare_lt_iff_lt.mpr (cast h), compare_lt_iff_lt.mpr h]
  · rw [compare_eq_iff_eq.mpr rfl, compare_eq_iff_eq.mpr rfl]
  · rw [compare_gt_iff_gt.mpr (cast h), compare_gt_iff_gt.mpr h]

theorem compareMagnitude_eq_compare {n m : Nat} (hn : 0 < n) (hm : 0 < m) (e f : Int) :
    compareMagnitude n e m f = compare ((n : ℚ) * 10 ^ e) (m * 10 ^ f) := by
  obtain ⟨l, hl⟩ : ∃ l, l = min e f := ⟨_, rfl⟩
  have he : l ≤ e := by omega
  have hf : l ≤ f := by omega
  rw [compareMagnitude_eq hn hm he hf, coefficient_lower n he, coefficient_lower m hf,
    compare_natCast_mul _ _ (ten_zpow_pos l)]

/-- **Decimals are compared as their values are.** -/
theorem compareNumbers_eq {a b : Decimal} (ha : a.IsFinite) (hb : b.IsFinite) :
    compareNumbers a b = compare a.toRat b.toRat := by
  obtain ⟨s, n, e, rfl⟩ := ha.exists_eq
  obtain ⟨t, m, f, rfl⟩ := hb.exists_eq
  unfold compareNumbers
  dsimp only
  rw [toRat_finite, toRat_finite]
  rcases Nat.eq_zero_or_pos n with rfl | hn
  · rw [Nat.cast_zero, zero_mul, signed_zero]
    rcases Nat.eq_zero_or_pos m with rfl | hm
    · rw [if_pos ⟨rfl, rfl⟩, Nat.cast_zero, zero_mul, signed_zero, compare_eq_iff_eq.mpr rfl]
    · have hpos := coefficient_pos hm f
      rw [if_neg (by omega), if_pos rfl]
      cases t with
      | true => exact (compare_gt_iff_gt.mpr (neg_lt_zero.mpr hpos)).symm
      | false => exact (compare_lt_iff_lt.mpr hpos).symm
  · have hpos := coefficient_pos hn e
    rcases Nat.eq_zero_or_pos m with rfl | hm
    · rw [if_neg (by omega), if_neg (by omega), if_pos rfl, Nat.cast_zero, zero_mul,
        signed_zero]
      cases s with
      | true => exact (compare_lt_iff_lt.mpr (neg_lt_zero.mpr hpos)).symm
      | false => exact (compare_gt_iff_gt.mpr hpos).symm
    · have hpos' := coefficient_pos hm f
      rw [if_neg (by omega), if_neg (by omega), if_neg (by omega),
        compareMagnitude_eq_compare hn hm, compareMagnitude_eq_compare hm hn]
      -- Numbers of one sign are compared by magnitude, the other way round below zero.
      cases s <;> cases t
      · rfl
      · exact (compare_gt_iff_gt.mpr ((neg_lt_zero.mpr hpos').trans hpos)).symm
      · exact (compare_lt_iff_lt.mpr ((neg_lt_zero.mpr hpos).trans hpos')).symm
      · exact (compare_neg_neg _ _).symm

theorem equal_eq {a b : Decimal} (ha : a.IsFinite) (hb : b.IsFinite) :
    a.equal b = .ok (compare a.toRat b.toRat == .eq) := by
  rw [equal, ha.isSignaling_eq, hb.isSignaling_eq, ha.isNaN_eq, hb.isNaN_eq,
    compareNumbers_eq ha hb]
  rfl

theorem less_eq {a b : Decimal} (ha : a.IsFinite) (hb : b.IsFinite) :
    a.less b = .ok (compare a.toRat b.toRat == .lt) := by
  rw [less, ha.isNaN_eq, hb.isNaN_eq, compareNumbers_eq ha hb]
  rfl

end PerfLedger.Decimal
