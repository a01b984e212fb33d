import Mathlib.Algebra.Order.BigOperators.Group.List
import Mathlib.Algebra.Order.Ring.Pow
import PerfLedger.Proofs.Decimal.Nearest

/-!
# Sums that are rounded at each step

A list of numbers is summed by adding one after the other, and each sum is rounded before the next
number is added (`runningSum`).

If all numbers are multiples of one power of ten, and their magnitudes together have no more than 28
digits above it, every partial sum can be kept and nothing is rounded (`runningSum_eq_sum`).

In any case, the error is bounded by the magnitudes of the numbers (`runningSum_error`). Where
numbers cancel, a sum may be very small, and its rounding error is then no relative one. But it is
not larger than that of a number of the size that the sum could have had without the cancellation,
and this is not very small unless all numbers are zero (`nearest_error_le`). The same argument goes
for the mean (`mean_error`).
-/

namespace PerfLedger.Decimal

/-- The sum of numbers that are added to a first one in turn, each sum rounded. -/
def runningSum (s : ℚ) (xs : List ℚ) : ℚ :=
  xs.foldl (fun s x => nearest (s + x)) s

theorem runningSum_cons (s x : ℚ) (xs : List ℚ) :
    runningSum s (x :: xs) = runningSum (nearest (s + x)) xs := rfl

/-- None of the sums that are found is beyond the largest number. -/
def SumsFit (s : ℚ) : List ℚ → Prop
  | [] => True
  | x :: xs => |nearest (s + x)| ≤ largest ∧ SumsFit (nearest (s + x)) xs

/-- The sum of the magnitudes of numbers. -/
def magnitude (xs : List ℚ) : ℚ :=
  (xs.map fun x => |x|).sum

@[simp] theorem magnitude_nil : magnitude [] = 0 := rfl

@[simp] theorem magnitude_cons (x : ℚ) (xs : List ℚ) :
    magnitude (x :: xs) = |x| + magnitude xs := by
  simp [magnitude]

theorem magnitude_nonneg (xs : List ℚ) : 0 ≤ magnitude xs :=
  List.sum_nonneg (by simp)

theorem abs_sum_le_magnitude (xs : List ℚ) : |xs.sum| ≤ magnitude xs := by
  induction xs with
  | nil => simp
  | cons x xs ih =>
    rw [List.sum_cons, magnitude_cons]
    exact (abs_add_le x xs.sum).trans (by linarith)

theorem abs_le_magnitude {x : ℚ} {xs : List ℚ} (h : x ∈ xs) : |x| ≤ magnitude xs :=
  List.single_le_sum (by simp) _ (List.mem_map_of_mem h)

/-! ## Sums without an error -/

section grid

variable {e : ℤ} {s x y : ℚ} {xs : List ℚ}

/-- A multiple of a power of ten. -/
def OnGrid (e : ℤ) (x : ℚ) : Prop :=
  ∃ i : ℤ, x = i * 10 ^ e

theorem OnGrid.zero : OnGrid e 0 :=
  ⟨0, by simp⟩

theorem OnGrid.add (hx : OnGrid e x) (hy : OnGrid e y) : OnGrid e (x + y) := by
  obtain ⟨i, rfl⟩ := hx
  obtain ⟨j, rfl⟩ := hy
  exact ⟨i + j, by push_cast; ring⟩

theorem OnGrid.isKept (he : minQuantum ≤ e) (hx : OnGrid e x) (h : |x| < 10 ^ (precision + e)) :
    IsKept x := by
  obtain ⟨i, rfl⟩ := hx
  refine ⟨i, e, ?_, he, rfl⟩
  have hpos := ten_zpow_pos e
  rw [abs_mul, abs_of_pos hpos, ten_zpow_add, zpow_natCast] at h
  exact_mod_cast lt_of_mul_lt_mul_right h hpos.le

/-- The next sum of numbers on the grid can be kept. -/
theorem nearest_add_of_grid (he : minQuantum ≤ e) (hs : OnGrid e s) (hx : OnGrid e x)
    (h : |s| + magnitude (x :: xs) < 10 ^ (precision + e)) :
    nearest (s + x) = s + x ∧ |s + x| + magnitude xs < 10 ^ (precision + e) := by
  have habs := abs_add_le s x
  rw [magnitude_cons] at h
  have hrest : |s + x| + magnitude xs < 10 ^ (precision + e) := by linarith
  have hle : |s + x| < 10 ^ (precision + e) := by linarith [magnitude_nonneg xs]
  exact ⟨nearest_of_isKept ((hs.add hx).isKept he hle), hrest⟩

/-- **Nothing is rounded** if all digits of all sums can be kept. -/
theorem runningSum_eq_sum (he : minQuantum ≤ e) (hs : OnGrid e s) (hxs : ∀ x ∈ xs, OnGrid e x)
    (h : |s| + magnitude xs < 10 ^ (precision + e)) : runningSum s xs = s + xs.sum := by
  induction xs generalizing s with
  | nil => simp [runningSum]
  | cons x xs ih =>
    rw [List.forall_mem_cons] at hxs
    obtain ⟨hstep, hrest⟩ := nearest_add_of_grid he hs hxs.1 h
    rw [runningSum_cons, hstep, ih (hs.add hxs.1) hxs.2 hrest, List.sum_cons, add_assoc]

/-- Then a sum is beyond the largest number only if an exact one is. -/
theorem sumsFit_iff (he : minQuantum ≤ e) (hs : OnGrid e s) (hfits : |s| ≤ largest)
    (hxs : ∀ x ∈ xs, OnGrid e x) (h : |s| + magnitude xs < 10 ^ (precision + e)) :
    SumsFit s xs ↔ ∀ front, front <+: xs → |s + front.sum| ≤ largest := by
  induction xs generalizing s with
  | nil => simpa [SumsFit] using hfits
  | cons x xs ih =>
    rw [List.forall_mem_cons] at hxs
    obtain ⟨hstep, hrest⟩ := nearest_add_of_grid he hs hxs.1 h
    rw [SumsFit, hstep]
    constructor
    · rintro ⟨hfits', hsums⟩ front hfront
      rcases List.prefix_cons_iff.mp hfront with rfl | ⟨more, rfl, hmore⟩
      · simpa using hfits
      · rw [List.sum_cons, ← add_assoc]
        exact (ih (hs.add hxs.1) hfits' hxs.2 hrest).mp hsums more hmore
    · intro hall
      have hone := hall [x] (List.prefix_append [x] xs)
      rw [List.sum_singleton] at hone
      refine ⟨hone, (ih (hs.add hxs.1) hone hxs.2 hrest).mpr fun front hfront => ?_⟩
      have hmore := hall (x :: front) (List.cons_prefix_cons.mpr ⟨rfl, hfront⟩)
      rwa [List.sum_cons, ← add_assoc] at hmore

end grid

/-! ## The error of a sum -/

section error

variable {k : Nat} {s t a x : ℚ}

/-- What has been found instead of `t` is not much larger than that could be. -/
theorem abs_le_of_error (ht : |t| ≤ a) (hs : |s - t| ≤ roundingError k * a) :
    |s| ≤ (1 + unitRoundoff) ^ k * a := by
  have htri := abs_sub_abs_le_abs_sub s t
  rw [roundingError] at hs
  linarith

/-- One more number that is not very small adds one rounding. -/
theorem running_step (ht : |t| ≤ a) (hs : |s - t| ≤ roundingError k * a) (hx : IsNormal x) :
    |nearest (s + x) - (t + x)| ≤ roundingError (k + 1) * (a + |x|) := by
  have ha : 0 ≤ a := (abs_nonneg t).trans ht
  have hone := one_le_pow_unitRoundoff k
  -- The size that the sum could have had is at least that of the number added.
  obtain ⟨b, hb⟩ : ∃ b, b = (1 + unitRoundoff) ^ k * (a + |x|) := ⟨_, rfl⟩
  have hself : |x| ≤ (1 + unitRoundoff) ^ k * |x| := le_mul_of_one_le_left (abs_nonneg x) hone
  have hle : |s + x| ≤ b :=
    calc |s + x| ≤ |s| + |x| := abs_add_le s x
      _ ≤ (1 + unitRoundoff) ^ k * a + (1 + unitRoundoff) ^ k * |x| :=
        add_le_add (abs_le_of_error ht hs) hself
      _ = b := by rw [hb, mul_add]
  have hxb : |x| ≤ b := by
    rw [hb, mul_add]
    exact hself.trans (le_add_of_nonneg_left (mul_nonneg (by linarith) ha))
  have hnormal : IsNormal b := hx.trans (hxb.trans (le_abs_self b))
  have herror := nearest_error_le hle hnormal
  have hmul : roundingError k * a ≤ roundingError k * (a + |x|) :=
    mul_le_mul_of_nonneg_left (le_add_of_nonneg_right (abs_nonneg x)) (roundingError_nonneg k)
  calc |nearest (s + x) - (t + x)|
      ≤ |nearest (s + x) - (s + x)| + |s + x - (t + x)| := abs_sub_le _ _ _
    _ = |nearest (s + x) - (s + x)| + |s - t| := by rw [add_sub_add_right_eq_sub]
    _ ≤ unitRoundoff * b + roundingError k * (a + |x|) := by linarith
    _ = roundingError (k + 1) * (a + |x|) := by
        rw [hb, roundingError, roundingError, pow_succ]
        ring

/-- How many of the numbers are not zero. Only these are rounded. -/
def countNonzero (xs : List ℚ) : Nat :=
  xs.countP fun x => x ≠ 0

@[simp] theorem countNonzero_nil : countNonzero [] = 0 := rfl

@[simp] theorem countNonzero_zero_cons (xs : List ℚ) :
    countNonzero (0 :: xs) = countNonzero xs := by
  simp [countNonzero]

theorem countNonzero_cons (hx : x ≠ 0) (xs : List ℚ) :
    countNonzero (x :: xs) = countNonzero xs + 1 := by
  simp [countNonzero, hx]

theorem runningSum_spec {xs : List ℚ} (hkept : IsKept s) (ht : |t| ≤ a)
    (hs : |s - t| ≤ roundingError k * a) (hxs : ∀ x ∈ xs, IsZeroOrNormal x) :
    |runningSum s xs - (t + xs.sum)| ≤
      roundingError (k + countNonzero xs) * (a + magnitude xs) := by
  induction xs generalizing s t a k with
  | nil => simpa [runningSum] using hs
  | cons x xs ih =>
    rw [List.forall_mem_cons] at hxs
    rw [runningSum_cons, List.sum_cons, magnitude_cons, ← add_assoc, ← add_assoc]
    rcases eq_or_ne x 0 with rfl | hne
    · rw [countNonzero_zero_cons, add_zero, nearest_of_isKept hkept, add_zero, abs_zero, add_zero]
      exact ih hkept ht hs hxs.2
    · rw [countNonzero_cons hne, add_comm (countNonzero xs), ← add_assoc]
      have htx : |t + x| ≤ a + |x| := (abs_add_le t x).trans (by linarith)
      exact ih (nearest_isKept _) htx (running_step ht hs (hxs.1.resolve_left hne)) hxs.2

/-- **The error of a sum is bounded by the magnitudes of the numbers.** -/
theorem runningSum_error {xs : List ℚ} (hxs : ∀ x ∈ xs, IsZeroOrNormal x) :
    |runningSum 0 xs - xs.sum| ≤ roundingError (countNonzero xs) * magnitude xs := by
  have hkept : IsKept 0 := ⟨0, 0, by decide, by decide, by simp⟩
  have hspec := runningSum_spec (k := 0) (s := 0) (t := 0) (a := 0) hkept (by simp) (by simp) hxs
  simpa using hspec

end error

/-! ## The error of a mean -/

theorem countNonzero_le_length (xs : List ℚ) : countNonzero xs ≤ xs.length :=
  List.countP_le_length

/-- Numbers that are not very small add up. -/
theorem countNonzero_mul_le {xs : List ℚ} (hxs : ∀ x ∈ xs, IsZeroOrNormal x) :
    countNonzero xs * 10 ^ (-999999 : ℤ) ≤ magnitude xs := by
  induction xs with
  | nil => simp
  | cons x xs ih =>
    rw [List.forall_mem_cons] at hxs
    have hrest := ih hxs.2
    rcases eq_or_ne x 0 with rfl | hne
    · simpa using hrest
    · have hx : 10 ^ (-999999 : ℤ) ≤ |x| := hxs.1.resolve_left hne
      rw [countNonzero_cons hne, magnitude_cons, Nat.cast_add_one, add_one_mul]
      linarith

theorem magnitude_eq_zero {xs : List ℚ} (h : countNonzero xs = 0) : magnitude xs = 0 := by
  have hzero : ∀ x ∈ xs, x = 0 := by simpa [countNonzero, List.countP_eq_zero] using h
  have hmap : xs.map (fun x => |x|) = xs.map fun _ => 0 :=
    List.map_congr_left fun x hx => by rw [hzero x hx, abs_zero]
  rw [magnitude, hmap]
  simp

/-- The rounding errors that are left over if some numbers are zero make up for the mean being very
small. -/
theorem smallest_le_of_count {n p : Nat} {m a : ℚ} (hp : 0 < p) (hpn : p ≤ n) (hm : 0 ≤ m)
    (ha : p * m ≤ a) :
    unitRoundoff * m * n ≤ (roundingError (n + 1) - roundingError p) * a := by
  obtain ⟨q, rfl⟩ : ∃ q, p = q + 1 := ⟨p - 1, by omega⟩
  obtain ⟨d, rfl⟩ : ∃ d, n = q + 1 + d := ⟨n - (q + 1), by omega⟩
  have hu := unitRoundoff_pos
  have hbernoulli : 1 + ((d + 1 : Nat) : ℚ) * unitRoundoff ≤ (1 + unitRoundoff) ^ (d + 1) :=
    one_add_mul_le_pow (by linarith) _
  have hone := one_le_pow_unitRoundoff (q + 1)
  have hsplit : roundingError (q + 1 + d + 1) - roundingError (q + 1) =
      (1 + unitRoundoff) ^ (q + 1) * ((1 + unitRoundoff) ^ (d + 1) - 1) := by
    rw [roundingError, roundingError, add_assoc, pow_add]
    ring
  have hfactor : (d + 1 : ℚ) * unitRoundoff ≤
      roundingError (q + 1 + d + 1) - roundingError (q + 1) := by
    have hle : (d + 1 : ℚ) * unitRoundoff ≤ (1 + unitRoundoff) ^ (d + 1) - 1 := by
      push_cast at hbernoulli
      linarith
    rw [hsplit]
    exact hle.trans (le_mul_of_one_le_left ((by positivity : (0 : ℚ) ≤ _).trans hle) hone)
  have hcount : ((q + 1 + d : Nat) : ℚ) ≤ (d + 1) * (q + 1) := by
    exact_mod_cast (by nlinarith : q + 1 + d ≤ (d + 1) * (q + 1))
  calc unitRoundoff * m * ((q + 1 + d : Nat) : ℚ)
      ≤ unitRoundoff * m * ((d + 1) * (q + 1)) :=
        mul_le_mul_of_nonneg_left hcount (mul_nonneg hu.le hm)
    _ = (d + 1) * unitRoundoff * (((q + 1 : Nat) : ℚ) * m) := by push_cast; ring
    _ ≤ (roundingError (q + 1 + d + 1) - roundingError (q + 1)) * a :=
        mul_le_mul hfactor ha (by positivity) ((by positivity : (0 : ℚ) ≤ _).trans hfactor)

/-- The last rounding of a mean adds no more than the bound allows, whether the size that the mean
could have had or the smallest normal number is the larger one. -/
theorem mean_bound {n p : Nat} {a b : ℚ} (hp : 0 < p) (hpn : p ≤ n)
    (ha : p * 10 ^ (-999999 : ℤ) ≤ a)
    (hb : b = max ((1 + unitRoundoff) ^ p * (a / n)) (10 ^ (-999999 : ℤ))) :
    unitRoundoff * b + roundingError p * (a / n) ≤ roundingError (n + 1) * (a / n) := by
  have hn0 : (0 : ℚ) < n := by exact_mod_cast hp.trans_le hpn
  have ha0 : 0 ≤ a := (mul_nonneg (Nat.cast_nonneg p) (ten_zpow_pos _).le).trans ha
  have hquotient : 0 ≤ a / n := div_nonneg ha0 hn0.le
  rcases max_choice ((1 + unitRoundoff) ^ p * (a / n)) (10 ^ (-999999 : ℤ)) with h | h
  · calc unitRoundoff * b + roundingError p * (a / n) = roundingError (p + 1) * (a / n) := by
          rw [hb, h, roundingError, roundingError, pow_succ]
          ring
      _ ≤ roundingError (n + 1) * (a / n) :=
          mul_le_mul_of_nonneg_right (roundingError_mono (by omega)) hquotient
  · have hsmall := smallest_le_of_count hp hpn (ten_zpow_pos _).le ha
    rw [← le_div_iff₀ hn0, mul_div_assoc, sub_mul] at hsmall
    rw [hb, h]
    linarith

/-- **The error of a mean is bounded by the mean of the magnitudes.** -/
theorem mean_error {xs : List ℚ} (hne : xs ≠ []) (hxs : ∀ x ∈ xs, IsZeroOrNormal x) :
    |nearest (runningSum 0 xs / xs.length) - xs.sum / xs.length| ≤
      roundingError (xs.length + 1) * (magnitude xs / xs.length) := by
  obtain ⟨n, hn⟩ : ∃ n, n = xs.length := ⟨_, rfl⟩
  obtain ⟨p, hp⟩ : ∃ p, p = countNonzero xs := ⟨_, rfl⟩
  obtain ⟨s, hs⟩ : ∃ s, s = runningSum 0 xs := ⟨_, rfl⟩
  have hsum := runningSum_error hxs
  have htotal := abs_sum_le_magnitude xs
  rw [← hp, ← hs] at hsum
  rw [← hn, ← hs]
  have hn0 : (0 : ℚ) < n := by
    rw [hn]
    exact_mod_cast List.length_pos_iff.mpr hne
  rcases Nat.eq_zero_or_pos p with hzero | hpos
  · have hmagnitude : magnitude xs = 0 := magnitude_eq_zero (hp ▸ hzero)
    rw [hmagnitude, mul_zero] at hsum
    rw [hmagnitude] at htotal ⊢
    rw [sub_eq_zero.mp (abs_nonpos_iff.mp hsum), abs_nonpos_iff.mp htotal]
    simp
  · obtain ⟨b, hb⟩ : ∃ b, b = max ((1 + unitRoundoff) ^ p * (magnitude xs / n))
        (10 ^ (-999999 : ℤ)) := ⟨_, rfl⟩
    have hle : |s / n| ≤ b := by
      rw [abs_div, abs_of_pos hn0, div_le_iff₀ hn0]
      calc |s| ≤ (1 + unitRoundoff) ^ p * magnitude xs := abs_le_of_error htotal hsum
        _ = (1 + unitRoundoff) ^ p * (magnitude xs / n) * n := by field_simp
        _ ≤ b * n := mul_le_mul_of_nonneg_right (hb ▸ le_max_left _ _) hn0.le
    have hnormal : IsNormal b := (hb ▸ le_max_right _ _ : _ ≤ b).trans (le_abs_self b)
    have hlast := nearest_error_le hle hnormal
    have hfirst : |s / n - xs.sum / n| ≤ roundingError p * (magnitude xs / n) := by
      rw [← sub_div, abs_div, abs_of_pos hn0, ← mul_div_assoc]
      exact div_le_div_of_nonneg_right hsum hn0.le
    have hbound : unitRoundoff * b + roundingError p * (magnitude xs / n) ≤
        roundingError (n + 1) * (magnitude xs / n) :=
      mean_bound hpos (hp ▸ hn ▸ countNonzero_le_length xs) (hp ▸ countNonzero_mul_le hxs) hb
    calc |nearest (s / n) - xs.sum / n|
        ≤ |nearest (s / n) - s / n| + |s / n - xs.sum / n| := abs_sub_le _ _ _
      _ ≤ roundingError (n + 1) * (magnitude xs / n) := by linarith

end PerfLedger.Decimal
