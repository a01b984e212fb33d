import Mathlib.Tactic.Ring
import PerfLedger.Proofs.Decimal.Scale

/-!
# Sums

A sum is the exact sum, rounded once (`addNumbers_finite`), so it depends on the values of the
summands alone (`add_congr`).

This is not how it is computed where one summand is out of reach of the digits that are kept: then
one unit stands for it, just below them. What is rounded to an integer changes only where it passes
a half, and the halves lie on a grid that is coarser than both the summand and the unit
(`exists_grid`). So between two points of the grid it makes no difference which of them is added.
-/

namespace PerfLedger.Decimal

/-! ## Between the halves -/

/-- Off the halves, the nearest integer is a quotient. -/
theorem divHalfEven_eq_div {x d : Nat} (hd : 0 < d) (h : ¬2 * d ∣ 2 * x + d) :
    divHalfEven x d = (2 * x + d) / (2 * d) := by
  have hx : d * (x / d) + x % d = x := Nat.div_add_mod x d
  have hmod : x % d < d := Nat.mod_lt x hd
  have hq : x / d * (2 * d) = 2 * (d * (x / d)) := by ring
  have hq' : (x / d + 1) * (2 * d) = 2 * (d * (x / d)) + 2 * d := by ring
  have hq'' : (x / d + 1 + 1) * (2 * d) = 2 * (d * (x / d)) + 4 * d := by ring
  -- The remainder is on one side of the half.
  have hne : 2 * (x % d) ≠ d := by
    intro hhalf
    refine h ⟨x / d + 1, ?_⟩
    rw [Nat.mul_comm (2 * d), hq']
    omega
  unfold divHalfEven
  dsimp only
  symm
  split
  · exact Nat.div_eq_of_lt_le (by omega) (by omega)
  · exact Nat.div_eq_of_lt_le (by omega) (by omega)

/-- Numbers between the same points of a grid that has all halves on it are rounded alike. -/
theorem divHalfEven_eq_of_between {d h c x y : Nat} (hd : 0 < d) (hh : h ∣ 2 * d)
    (hx : h * c < 2 * x + d ∧ 2 * x + d < h * (c + 1))
    (hy : h * c < 2 * y + d ∧ 2 * y + d < h * (c + 1)) : divHalfEven x d = divHalfEven y d := by
  obtain ⟨w, hw⟩ := hh
  have quotient {x : Nat} (hx : h * c < 2 * x + d ∧ 2 * x + d < h * (c + 1)) :
      divHalfEven x d = c / w := by
    have hcell : (2 * x + d) / h = c := by
      refine Nat.div_eq_of_lt_le ?_ ?_
      · rw [Nat.mul_comm c]
        exact Nat.le_of_lt hx.1
      · rw [Nat.mul_comm (c + 1)]
        exact hx.2
    have hoff : ¬2 * d ∣ 2 * x + d := by
      rintro ⟨j, hj⟩
      rw [hw, Nat.mul_assoc] at hj
      rw [hj] at hx
      have hlow := Nat.lt_of_mul_lt_mul_left hx.1
      have hhigh := Nat.lt_of_mul_lt_mul_left hx.2
      omega
    rw [divHalfEven_eq_div hd hoff, hw, ← Nat.div_div_eq_div_mul, hcell]
  rw [quotient hx, quotient hy]

/-! ## A summand out of reach -/

section low

variable {n E K J : Nat}

/-- Whatever the last place, there is a grid with the number and all halves on it. -/
theorem exists_grid (hKE : K < E) (hKJ : K < J) :
    ∃ h c, h ∣ 2 * 10 ^ J ∧ 2 * (n * 10 ^ E) + 10 ^ J = h * c ∧ 2 * 10 ^ K < h := by
  have hpos : 0 < 10 ^ K := Nat.pow_pos (by decide)
  have above {i : Nat} (hi : K < i) : 10 * 10 ^ K ≤ 10 ^ i := by
    rw [Nat.mul_comm, ← Nat.pow_succ]
    exact Nat.pow_le_pow_right (by decide) hi
  rcases Nat.le_total J E with hle | hle
  · -- The number is a multiple of the last place.
    refine ⟨10 ^ J, 2 * (n * 10 ^ (E - J)) + 1, Nat.dvd_mul_left _ _, ?_, ?_⟩
    · have hE : 10 ^ E = 10 ^ J * 10 ^ (E - J) := by rw [← Nat.pow_add, Nat.add_sub_cancel' hle]
      rw [hE]
      ring
    · have := above hKJ
      omega
  · -- The half is a multiple of the last place of the number.
    rcases Nat.eq_or_lt_of_le hle with rfl | hlt
    · refine ⟨10 ^ E, 2 * n + 1, Nat.dvd_mul_left _ _, by ring, ?_⟩
      have := above hKE
      omega
    · refine ⟨2 * 10 ^ E, n + 5 * 10 ^ (J - E - 1), ?_, ?_, ?_⟩
      · exact Nat.mul_dvd_mul_left 2 (Nat.pow_dvd_pow 10 hle)
      · have hJ : 10 ^ J = 10 ^ E * (10 * 10 ^ (J - E - 1)) := by
          rw [Nat.mul_comm 10, ← Nat.pow_succ, ← Nat.pow_add]
          congr 1
          omega
        rw [hJ]
        ring
      · have := above hKE
        omega

/-- A summand out of reach does not add a digit. -/
theorem digitCount_add_low (hn : 0 < n) (hKE : K < E) {x : Nat} (hx : x ≤ 10 ^ K) :
    digitCount (n * 10 ^ E + x) = digitCount n + E := by
  have hpos : 0 < n * 10 ^ E := Nat.mul_pos hn (Nat.pow_pos (by decide))
  refine Nat.le_antisymm ?_ ?_
  · rw [digitCount_le_iff (by omega), Nat.pow_add]
    have hlt : 10 ^ K < 10 ^ E := Nat.pow_lt_pow_right (by decide) hKE
    have hle : (n + 1) * 10 ^ E ≤ 10 ^ digitCount n * 10 ^ E :=
      Nat.mul_le_mul_right _ (lt_pow_digitCount n)
    rw [Nat.add_mul, Nat.one_mul] at hle
    omega
  · rw [← digitCount_mul_pow hn]
    exact digitCount_mono (Nat.le_add_right _ _)

/-- How many digits are left does not depend on the summand that is taken away. -/
theorem digitCount_sub_low (hn : 0 < n) (hKE : K < E) (hK : K + 2 ≤ digitCount n + E) :
    ∃ p, digitCount n + E ≤ p + 1 ∧
      ∀ x, 0 < x → x ≤ 10 ^ K → digitCount (n * 10 ^ E - x) = p := by
  have hd := digitCount_pos n
  have hlt : 10 ^ K < 10 ^ E := Nat.pow_lt_pow_right (by decide) hKE
  have hlow := pow_le_of_pos hn
  obtain ⟨i, hi⟩ : ∃ i, digitCount n + E = i + 2 := ⟨digitCount n + E - 2, by omega⟩
  have htop : 10 ^ (digitCount n - 1) * 10 ^ E = 10 * 10 ^ i := by
    rw [← Nat.pow_add, Nat.mul_comm, ← Nat.pow_succ]
    congr 1
    omega
  have hKi : 10 ^ K ≤ 10 ^ i := Nat.pow_le_pow_right (by decide) (by omega)
  have hup : n * 10 ^ E < 10 ^ (i + 2) := by
    rw [← hi, Nat.pow_add]
    exact Nat.mul_lt_mul_of_pos_right (lt_pow_digitCount n) (Nat.pow_pos (by decide))
  have hpow : 10 ^ (i + 1) = 10 * 10 ^ i := by rw [Nat.pow_succ, Nat.mul_comm]
  rcases Nat.eq_or_lt_of_le hlow with heq | hgt
  · -- A power of ten loses a digit.
    refine ⟨i + 1, by omega, fun x hx hxK => Nat.le_antisymm ?_ ?_⟩
    · rw [digitCount_le_iff (by rw [← heq]; omega), ← heq, hpow]
      omega
    · rw [Nat.succ_le_iff, lt_digitCount_iff (by rw [← heq]; omega), ← heq]
      omega
  · -- Any other number keeps its digits.
    have hge : 10 ^ (digitCount n - 1) * 10 ^ E + 10 ^ E ≤ n * 10 ^ E := by
      have := Nat.mul_le_mul_right (10 ^ E) hgt
      rwa [Nat.succ_mul] at this
    refine ⟨i + 2, by omega, fun x hx hxK => Nat.le_antisymm ?_ ?_⟩
    · rw [digitCount_le_iff (by omega)]
      omega
    · rw [Nat.succ_le_iff, lt_digitCount_iff (by omega), hpow]
      omega

/-- Numbers with as many digits are rounded alike if no last place that may be kept tells them
apart. -/
theorem round_eq_of_divHalfEven {s : Bool} {f : Int} {x y p : Nat} (hx : 0 < x) (hy : 0 < y)
    (hxp : digitCount x = p) (hyp : digitCount y = p)
    (h : ∀ J, p ≤ J + precision → divHalfEven x (10 ^ J) = divHalfEven y (10 ^ J)) :
    round s x f = round s y f := by
  have hq : quantum x f = quantum y f := by
    unfold quantum
    rw [hxp, hyp]
  have hrounded : rounded x f = rounded y f := by
    refine rounded_congr hq rfl ?_
    rw [coefficientAt_eq, coefficientAt_eq]
    refine h _ ?_
    unfold quantum
    omega
  rw [round_of_rounded (by omega) hrounded, round_of_rounded (by omega) rfl]

variable {x y : Nat} (hn : 0 < n) (hKE : K < E) (hK : K + 30 ≤ digitCount n + E)
  (hx : 0 < x ∧ x ≤ 10 ^ K) (hy : 0 < y ∧ y ≤ 10 ^ K)

include hn hKE hK hx hy

/-- Summands out of reach are added alike. -/
theorem round_add_low (s : Bool) (f : Int) :
    round s (n * 10 ^ E + x) f = round s (n * 10 ^ E + y) f := by
  refine round_eq_of_divHalfEven (by omega) (by omega) (digitCount_add_low hn hKE hx.2)
    (digitCount_add_low hn hKE hy.2) ?_
  intro J hJ
  have hprec : precision = 28 := rfl
  obtain ⟨h, c, hh, hc, hlow⟩ := exists_grid (n := n) (J := J) hKE (by omega)
  have hsucc : h * (c + 1) = h * c + h := Nat.mul_succ h c
  refine divHalfEven_eq_of_between (c := c) (Nat.pow_pos (by decide)) hh ?_ ?_ <;> omega

/-- Summands out of reach are taken away alike. -/
theorem round_sub_low (s : Bool) (f : Int) :
    round s (n * 10 ^ E - x) f = round s (n * 10 ^ E - y) f := by
  obtain ⟨p, hp, hdigits⟩ := digitCount_sub_low hn hKE (by omega)
  have hlt : 10 ^ K < 10 ^ E := Nat.pow_lt_pow_right (by decide) hKE
  have hle : 10 ^ E ≤ n * 10 ^ E := Nat.le_mul_of_pos_left _ hn
  refine round_eq_of_divHalfEven (by omega) (by omega) (hdigits x hx.1 hx.2)
    (hdigits y hy.1 hy.2) ?_
  intro J hJ
  have hprec : precision = 28 := rfl
  obtain ⟨h, c, hh, hc, hlow⟩ := exists_grid (n := n) (J := J) hKE (by omega)
  cases c with
  | zero =>
    have hpos : 0 < 10 ^ J := Nat.pow_pos (by decide)
    omega
  | succ c =>
    have hsucc : h * (c + 1) = h * c + h := Nat.mul_succ h c
    refine divHalfEven_eq_of_between (c := c) (Nat.pow_pos (by decide)) hh ?_ ?_ <;> omega

end low

/-! ## The exact sum -/

/-- The sum of `± x · 10 ^ l` and `± y · 10 ^ l`, rounded. -/
def exactSum (s : Bool) (x : Nat) (t : Bool) (y : Nat) (l : Int) : Except Signal Decimal :=
  addAligned s x 0 t y l

theorem addAligned_eq (s : Bool) (n k : Nat) (t : Bool) (m : Nat) (f : Int) :
    addAligned s n k t m f = exactSum s (n * 10 ^ k) t m f := by
  rw [exactSum, addAligned, addAligned]
  show _ = ite (s = t) (round s (n * 10 ^ k * 1 + m) f) _
  rw [Nat.mul_one]
  rfl

theorem exactSum_of_eq {s t : Bool} (h : s = t) (x y : Nat) (l : Int) :
    exactSum s x t y l = round s (x + y) l := by
  rw [exactSum, addAligned]
  show ite (s = t) (round s (x * 1 + y) l) _ = _
  rw [if_pos h, Nat.mul_one]

theorem exactSum_of_ne {s t : Bool} (h : s ≠ t) (x y : Nat) (l : Int) :
    exactSum s x t y l =
      if x = y then round false 0 l
      else if y < x then round s (x - y) l else round t (y - x) l := by
  rw [exactSum, addAligned]
  show ite (s = t) _ (ite (x * 1 = y) _ (ite (y < x * 1) (round s (x * 1 - y) l)
    (round t (y - x * 1) l))) = _
  rw [if_neg h, Nat.mul_one]

theorem exactSum_comm (s : Bool) (x : Nat) (t : Bool) (y : Nat) (l : Int) :
    exactSum s x t y l = exactSum t y s x l := by
  by_cases h : s = t
  · rw [exactSum_of_eq h, exactSum_of_eq h.symm, h, Nat.add_comm]
  · rw [exactSum_of_ne h, exactSum_of_ne (Ne.symm h)]
    rcases Nat.lt_trichotomy x y with hlt | rfl | hgt
    · rw [if_neg (by omega), if_neg (by omega), if_neg (by omega), if_pos hlt]
    · rw [if_pos rfl, if_pos rfl]
    · rw [if_neg (by omega), if_pos hgt, if_neg (by omega), if_neg (by omega)]

/-- A sum depends on the values of the summands alone. -/
theorem exactSum_mul_pow (s : Bool) (x : Nat) (t : Bool) (y k : Nat) (l : Int) :
    Alike (exactSum s (x * 10 ^ k) t (y * 10 ^ k) l) (exactSum s x t y (l + k)) := by
  have hpos : 0 < 10 ^ k := Nat.pow_pos (by decide)
  by_cases h : s = t
  · rw [exactSum_of_eq h, exactSum_of_eq h, ← Nat.add_mul]
    exact round_congr s (sameValue_zeros _ k l)
  · rw [exactSum_of_ne h, exactSum_of_ne h]
    rcases Nat.lt_trichotomy x y with hlt | rfl | hgt
    · have hlt' : x * 10 ^ k < y * 10 ^ k := Nat.mul_lt_mul_of_pos_right hlt hpos
      rw [if_neg (by omega), if_neg (by omega), if_neg (by omega), if_neg (by omega), ← Nat.sub_mul]
      exact round_congr t (sameValue_zeros _ k l)
    · rw [if_pos rfl, if_pos rfl]
      exact round_congr false (sameValue_zero _ _)
    · have hgt' : y * 10 ^ k < x * 10 ^ k := Nat.mul_lt_mul_of_pos_right hgt hpos
      rw [if_neg (by omega), if_pos hgt', if_neg (by omega), if_pos hgt, ← Nat.sub_mul]
      exact round_congr s (sameValue_zeros _ k l)

/-- A sum is seen at any exponent that is low enough. -/
theorem exactSum_lower (s : Bool) (n : Nat) (t : Bool) (m : Nat) {e f l l' : Int} (he : l ≤ e)
    (hf : l ≤ f) (hl : l' ≤ l) :
    Alike (exactSum s (n * 10 ^ (e - l').toNat) t (m * 10 ^ (f - l').toNat) l')
      (exactSum s (n * 10 ^ (e - l).toNat) t (m * 10 ^ (f - l).toNat) l) := by
  obtain ⟨k, hk⟩ : ∃ k, k = (l - l').toNat := ⟨_, rfl⟩
  have hek : (e - l').toNat = (e - l).toNat + k := by omega
  have hfk : (f - l').toNat = (f - l).toNat + k := by omega
  have hlk : l = l' + k := by omega
  rw [hek, hfk, Nat.pow_add, Nat.pow_add, ← Nat.mul_assoc, ← Nat.mul_assoc]
  have hmul := exactSum_mul_pow s (n * 10 ^ (e - l).toNat) t (m * 10 ^ (f - l).toNat) k l'
  rwa [← hlk] at hmul

/-- The unit that stands for a summand out of reach is added like that summand. -/
theorem exactSum_low {n m : Nat} {e f : Int} (hn : 0 < n) (hm : 0 < m)
    (h : f + digitCount m - 1 < reach n e) (s t : Bool) :
    Alike (exactSum s (n * 10 ^ (e - reach n e).toNat) t 1 (reach n e))
      (exactSum s (n * 10 ^ (e - f).toNat) t m f) := by
  have hd := digitCount_pos m
  have hprec : precision = 28 := rfl
  obtain ⟨hr, hr'⟩ : reach n e ≤ e - 1 ∧ reach n e + 30 ≤ e + digitCount n := by
    unfold reach
    omega
  obtain ⟨r, hrdef⟩ : ∃ r, r = reach n e := ⟨_, rfl⟩
  rw [← hrdef] at h hr hr' ⊢
  obtain ⟨K, hK⟩ : ∃ K, K = (r - f).toNat := ⟨_, rfl⟩
  obtain ⟨E, hE⟩ : ∃ E, E = (e - f).toNat := ⟨_, rfl⟩
  have hKE : K < E := by omega
  have hKd : K + 30 ≤ digitCount n + E := by omega
  have hmK : 0 < m ∧ m ≤ 10 ^ K :=
    ⟨hm, Nat.le_of_lt ((digitCount_le_iff hm).mp (by omega))⟩
  have hunit : 0 < 10 ^ K ∧ 10 ^ K ≤ 10 ^ K := ⟨Nat.pow_pos (by decide), Nat.le_refl _⟩
  have hlt : 10 ^ K < n * 10 ^ E :=
    Nat.lt_of_lt_of_le (Nat.pow_lt_pow_right (by decide) hKE) (Nat.le_mul_of_pos_left _ hn)
  -- Seen at the exponent of the summand, the unit is `10 ^ K`.
  have hlower := exactSum_lower s n t 1 (e := e) (f := r) (l := r) (by omega) (Int.le_refl r)
    (by omega : f ≤ r)
  rw [Int.sub_self, Int.toNat_zero, Nat.pow_zero, ← hE, ← hK, Nat.one_mul, Nat.one_mul] at hlower
  refine hlower.symm.trans ?_
  rw [← hE]
  by_cases hst : s = t
  · rw [exactSum_of_eq hst, exactSum_of_eq hst, round_add_low hn hKE hKd hunit hmK]
    exact .refl _
  · rw [exactSum_of_ne hst, exactSum_of_ne hst, if_neg (by omega), if_pos hlt, if_neg (by omega),
      if_pos (by omega), round_sub_low hn hKE hKd hunit hmK]
    exact .refl _

/-! ## Sums of decimals -/

theorem addOrdered_alike (s : Bool) (n : Nat) (t : Bool) (m : Nat) (e f : Int) :
    Alike (addOrdered s n e t m f) (exactSum s (n * 10 ^ (e - f).toNat) t m f) := by
  unfold addOrdered lowSummand
  by_cases hlow : n ≠ 0 ∧ f + digitCount m - 1 < reach n e
  · rw [if_pos hlow]
    dsimp only
    rw [if_neg hlow.1, addAligned_eq]
    by_cases hm : m = 0
    · -- Nothing is added at either exponent.
      have hr : reach n e ≤ e := by
        unfold reach
        omega
      have hlower := exactSum_lower s n t 0 (e := e) (f := reach n e) (l := reach n e) hr
        (Int.le_refl _) (by have := digitCount_pos m; omega : f ≤ reach n e)
      rw [Nat.zero_mul, Nat.zero_mul] at hlower
      rw [hm]
      exact hlower.symm
    · have hm : 0 < m := Nat.pos_of_ne_zero hm
      have hmin : min m 1 = 1 := by omega
      rw [hmin]
      exact exactSum_low (Nat.pos_of_ne_zero hlow.1) hm hlow.2 s t
  · rw [if_neg hlow]
    dsimp only
    split
    · next hn =>
      rw [hn, addAligned_eq, Nat.zero_mul, Nat.zero_mul]
      exact .refl _
    · rw [addAligned_eq]
      exact .refl _

/-- **A sum is the exact sum, rounded.** -/
theorem addNumbers_finite (s : Bool) (n : Nat) (t : Bool) (m : Nat) {e f l : Int} (he : l ≤ e)
    (hf : l ≤ f) :
    Alike (addNumbers (.finite s n e) (.finite t m f))
      (exactSum s (n * 10 ^ (e - l).toNat) t (m * 10 ^ (f - l).toNat) l) := by
  show Alike (if f ≤ e then addOrdered s n e t m f else addOrdered t m f s n e) _
  by_cases hle : f ≤ e
  · rw [if_pos hle]
    have hlower := exactSum_lower s n t m hle (Int.le_refl f) hf
    rw [Int.sub_self, Int.toNat_zero, Nat.pow_zero, Nat.mul_one] at hlower
    exact (addOrdered_alike s n t m e f).trans hlower.symm
  · rw [if_neg hle]
    have hlower := exactSum_lower s n t m (Int.le_refl e) (by omega : e ≤ f) he
    rw [Int.sub_self, Int.toNat_zero, Nat.pow_zero, Nat.mul_one, exactSum_comm s n] at hlower
    exact (addOrdered_alike t m s n f e).trans hlower.symm

theorem addNumbers_congr {a a' b b' : Decimal} (ha : Same a a') (hb : Same b b') :
    Alike (addNumbers a b) (addNumbers a' b') := by
  cases a with
  | finite s n e =>
    obtain ⟨n', e', rfl, hn⟩ := ha.of_finite
    cases b with
    | finite t m f =>
      obtain ⟨m', f', rfl, hm⟩ := hb.of_finite
      obtain ⟨l, hl⟩ : ∃ l, l = min (min e e') (min f f') := ⟨_, rfl⟩
      have h := addNumbers_finite s n t m (e := e) (f := f) (l := l) (by omega) (by omega)
      have h' := addNumbers_finite s n' t m' (e := e') (f := f') (l := l) (by omega) (by omega)
      rw [(sameValue_iff (by omega) (by omega)).mp hn,
        (sameValue_iff (by omega) (by omega)).mp hm] at h
      exact h.trans h'.symm
    | infinite t =>
      rw [hb.of_infinite]
      exact .refl _
    | nan t q p =>
      rw [hb.of_nan]
      exact .ok ha
  | infinite s =>
    rw [ha.of_infinite]
    cases b with
    | finite t m f =>
      obtain ⟨m', f', rfl, -⟩ := hb.of_finite
      exact .refl _
    | infinite t =>
      rw [hb.of_infinite]
      exact .refl _
    | nan t q p =>
      rw [hb.of_nan]
      exact .refl _
  | nan s q p =>
    rw [ha.of_nan]
    cases b with
    | finite t m f =>
      obtain ⟨m', f', rfl, -⟩ := hb.of_finite
      exact .refl _
    | infinite t =>
      rw [hb.of_infinite]
      exact .refl _
    | nan t q p =>
      rw [hb.of_nan]
      exact .refl _

end PerfLedger.Decimal
