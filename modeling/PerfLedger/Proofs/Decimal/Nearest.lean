import Mathlib.Data.Int.Log
import Mathlib.Data.Rat.Floor
import Mathlib.Tactic.FieldSimp
import Mathlib.Tactic.Linarith
import Mathlib.Tactic.Positivity
import PerfLedger.Decimal.Rounding

/-!
# The nearest number

Rounding to the working precision, said of rational numbers and without digits: the number is
divided by the unit of the last place that is kept (`lastPlace`) and taken to the nearest integer
(`halfEven`).

The numbers that can be kept (`IsKept`) are those of at most 28 digits with no place below the
smallest one. What is rounded is kept (`nearest_isKept`), and what is kept is not changed
(`nearest_of_isKept`). Rounding is monotone (`nearest_mono`). The error is at most half a unit of
the last place, which is one part in `2 · 10 ^ 27` unless the number is very small
(`nearest_error`); each further rounding adds to it (`error_step`). Moving the point makes no
difference, unless the number becomes very small (`nearest_mul_zpow`).
-/

namespace PerfLedger.Decimal

/-! ## The nearest integer -/

/-- The integer nearest to a rational number, the even one of two. -/
def halfEven (x : ℚ) : ℤ :=
  if 2 * Int.fract x < 1 then ⌊x⌋
  else if 1 < 2 * Int.fract x then ⌊x⌋ + 1
  else if Even ⌊x⌋ then ⌊x⌋ else ⌊x⌋ + 1

theorem halfEven_error (x : ℚ) : |(halfEven x : ℚ) - x| ≤ 1 / 2 := by
  have hx := Int.floor_add_fract x
  have hlow := Int.fract_nonneg x
  have hhigh := Int.fract_lt_one x
  unfold halfEven
  rw [abs_le]
  split_ifs
  · constructor <;> linarith
  all_goals
    push_cast
    constructor <;> linarith

/-- An integer that is nearer than a half is the nearest. -/
theorem halfEven_eq_of_lt {x : ℚ} {i : ℤ} (h : |x - i| < 1 / 2) : halfEven x = i := by
  have hnear : |((halfEven x - i : ℤ) : ℚ)| < 1 := by
    push_cast
    calc |(halfEven x : ℚ) - i| ≤ |(halfEven x : ℚ) - x| + |x - i| := abs_sub_le _ _ _
      _ < 1 := by linarith [halfEven_error x]
  have hzero : halfEven x - i = 0 := Int.abs_lt_one_iff.mp (by exact_mod_cast hnear)
  omega

@[simp] theorem halfEven_intCast (i : ℤ) : halfEven i = i :=
  halfEven_eq_of_lt (by norm_num)

theorem halfEven_mono {x y : ℚ} (hxy : x ≤ y) : halfEven x ≤ halfEven y := by
  by_contra hnot
  have hsucc : (halfEven y : ℚ) + 1 ≤ halfEven x := by exact_mod_cast not_le.mp hnot
  -- Both errors would have to be a half, so that the numbers are one.
  have hx := (abs_le.mp (halfEven_error x)).2
  have hy := (abs_le.mp (halfEven_error y)).1
  have heq : x = y := by linarith
  exact hnot (heq ▸ le_rfl)

theorem halfEven_neg (x : ℚ) : halfEven (-x) = -halfEven x := by
  have hx := Int.floor_add_fract x
  rcases eq_or_ne (Int.fract x) 0 with hzero | hne
  · have hint : x = ⌊x⌋ := by linarith
    rw [hint, ← Int.cast_neg, halfEven_intCast, halfEven_intCast]
  · have hfract : Int.fract (-x) = 1 - Int.fract x := Int.fract_neg hne
    have hfloor : ⌊-x⌋ = -⌊x⌋ - 1 := by
      have hneg := Int.floor_add_fract (-x)
      have hcast : (⌊-x⌋ : ℚ) = ((-⌊x⌋ - 1 : ℤ) : ℚ) := by
        push_cast
        linarith
      exact_mod_cast hcast
    unfold halfEven
    rw [hfract, hfloor]
    rcases lt_trichotomy (2 * Int.fract x) 1 with hlt | heq | hgt
    · rw [if_neg (by linarith), if_pos (by linarith), if_pos hlt]
      omega
    · -- Of the two neighbours of a half, the even one is the even one on the other side.
      have heven : Even (-⌊x⌋ - 1) ↔ ¬Even ⌊x⌋ := by rw [Int.even_sub_one, even_neg]
      have hnot : ¬2 * (1 - Int.fract x) < 1 ∧ ¬1 < 2 * (1 - Int.fract x) := by
        constructor <;> linarith
      rw [if_neg hnot.1, if_neg hnot.2, if_neg heq.not_lt, if_neg heq.symm.not_lt]
      by_cases h : Even ⌊x⌋
      · rw [if_neg fun h' => heven.mp h' h, if_pos h]
        omega
      · rw [if_pos (heven.mpr h), if_neg h]
        omega
    · rw [if_pos (by linarith), if_neg (by linarith), if_pos hgt]
      omega

/-- The nearest integer to a quotient is found by division with remainder. -/
theorem halfEven_div (n : Nat) {d : Nat} (hd : 0 < d) :
    halfEven ((n : ℚ) / d) = divHalfEven n d := by
  have hd' : (0 : ℚ) < d := by exact_mod_cast hd
  have hmod : ((n / d : Nat) : ℚ) * d + (n % d : Nat) = n := by
    exact_mod_cast Nat.div_add_mod' n d
  have hfloor : ⌊(n : ℚ) / d⌋ = (n / d : Nat) := Rat.floor_natCast_div_natCast n d
  have hfract : 2 * Int.fract ((n : ℚ) / d) = ((2 * (n % d) : Nat) : ℚ) / d := by
    rw [Int.fract, hfloor, Int.cast_natCast, ← hmod]
    push_cast
    field_simp
    ring
  have hlt : 2 * Int.fract ((n : ℚ) / d) < 1 ↔ 2 * (n % d) < d := by
    rw [hfract, div_lt_one hd']
    exact_mod_cast Iff.rfl
  have hgt : 1 < 2 * Int.fract ((n : ℚ) / d) ↔ d < 2 * (n % d) := by
    rw [hfract, one_lt_div hd']
    exact_mod_cast Iff.rfl
  have heven : Even ((n / d : Nat) : ℤ) ↔ n / d % 2 = 0 := by
    rw [Int.even_coe_nat, Nat.even_iff]
  unfold halfEven divHalfEven
  dsimp only
  simp only [hlt, hgt, hfloor, heven]
  rcases Nat.lt_trichotomy (2 * (n % d)) d with h | h | h
  · rw [if_pos h, if_neg (by omega)]
  · rw [if_neg (by omega), if_neg (by omega)]
    split_ifs <;> omega
  · rw [if_neg (by omega), if_pos h, if_pos (by omega)]
    rfl

/-- No half lies between neighbouring points of a grid that has the halves on it, so numbers there
have one nearest integer. -/
theorem halfEven_eq_of_between {x y : ℚ} {i c : ℤ} (hc : 0 < c) (heven : Even c)
    (hx : (i : ℚ) < x * c ∧ x * c < i + 1) (hy : (i : ℚ) < y * c ∧ y * c < i + 1) :
    halfEven x = halfEven y := by
  obtain ⟨w, rfl⟩ := heven
  obtain ⟨j, hj⟩ : ∃ j, j = halfEven x := ⟨_, rfl⟩
  have hw : (0 : ℚ) < w := by exact_mod_cast (by omega : 0 < w)
  have herror := abs_le.mp (halfEven_error x)
  rw [← hj] at herror ⊢
  push_cast at hx hy
  -- The half below and the half above the nearest integer are points of the grid.
  have hlow : (2 * j - 1) * w ≤ i := by
    have h : (((2 * j - 1) * w : ℤ) : ℚ) < ((i + 1 : ℤ) : ℚ) := by
      push_cast
      nlinarith
    have h' : (2 * j - 1) * w < i + 1 := by exact_mod_cast h
    omega
  have hhigh : i + 1 ≤ (2 * j + 1) * w := by
    have h : ((i : ℤ) : ℚ) < (((2 * j + 1) * w : ℤ) : ℚ) := by
      push_cast
      nlinarith
    have h' : i < (2 * j + 1) * w := by exact_mod_cast h
    omega
  have hlow' : (2 * (j : ℚ) - 1) * w ≤ i := by exact_mod_cast hlow
  have hhigh' : (i : ℚ) + 1 ≤ (2 * j + 1) * w := by exact_mod_cast hhigh
  refine (halfEven_eq_of_lt ?_).symm
  rw [abs_lt]
  constructor
  · by_contra hnot
    nlinarith
  · by_contra hnot
    nlinarith

/-! ## Powers of ten -/

theorem ten_zpow_pos (k : ℤ) : (0 : ℚ) < 10 ^ k :=
  zpow_pos (by norm_num) k

theorem ten_zpow_le {j k : ℤ} (h : j ≤ k) : (10 : ℚ) ^ j ≤ 10 ^ k :=
  zpow_le_zpow_right₀ (by norm_num) h

theorem ten_zpow_add (j k : ℤ) : (10 : ℚ) ^ (j + k) = 10 ^ j * 10 ^ k :=
  zpow_add₀ (by norm_num) j k

/-- A larger power of ten is a multiple of a smaller one. -/
theorem ten_zpow_eq {j k : ℤ} (h : j ≤ k) : (10 : ℚ) ^ k = (10 ^ (k - j).toNat : ℤ) * 10 ^ j := by
  have hk : k = ((k - j).toNat : ℤ) + j := by omega
  push_cast
  conv_lhs => rw [hk, ten_zpow_add, zpow_natCast]

/-- A power of ten moves the leading digit. -/
theorem log_mul_zpow {x : ℚ} (hx : 0 < x) (k : ℤ) :
    Int.log 10 (x * 10 ^ k) = Int.log 10 x + k := by
  have hpos := ten_zpow_pos k
  have hxk := mul_pos hx hpos
  refine le_antisymm ?_ ?_
  · rw [← Int.lt_add_one_iff, ← Int.lt_zpow_iff_log_lt (by norm_num) hxk, Nat.cast_ofNat,
      add_right_comm, ten_zpow_add]
    have hlt := Int.lt_zpow_succ_log_self (b := 10) (by norm_num) x
    exact mul_lt_mul_of_pos_right (by exact_mod_cast hlt) hpos
  · rw [← Int.zpow_le_iff_le_log (by norm_num) hxk, Nat.cast_ofNat, ten_zpow_add]
    have hle := Int.zpow_log_le_self (b := 10) (by norm_num) hx
    exact mul_le_mul_of_nonneg_right (by exact_mod_cast hle) hpos.le

/-! ## The last place -/

/-- The exponent of the last place that is kept of a number. -/
def lastPlace (x : ℚ) : ℤ :=
  max (Int.log 10 |x| + 1 - precision) minQuantum

/-- A number rounded to the working precision, without a bound on its size. -/
def nearest (x : ℚ) : ℚ :=
  halfEven (x / 10 ^ lastPlace x) * 10 ^ lastPlace x

@[simp] theorem lastPlace_neg (x : ℚ) : lastPlace (-x) = lastPlace x := by
  rw [lastPlace, lastPlace, abs_neg]

@[simp] theorem nearest_neg (x : ℚ) : nearest (-x) = -nearest x := by
  rw [nearest, nearest, lastPlace_neg, neg_div, halfEven_neg, Int.cast_neg, neg_mul]

@[simp] theorem nearest_zero : nearest 0 = 0 := by
  rw [nearest, zero_div, ← Int.cast_zero, halfEven_intCast, Int.cast_zero, zero_mul]

theorem lastPlace_le_iff {x : ℚ} (hx : x ≠ 0) {k : ℤ} (hk : minQuantum ≤ k) :
    lastPlace x ≤ k ↔ |x| < 10 ^ (k + precision) := by
  have hlog := Int.lt_zpow_iff_log_lt (R := ℚ) (b := 10) (by norm_num) (x := k + precision)
    (abs_pos.mpr hx)
  rw [Nat.cast_ofNat] at hlog
  rw [hlog, lastPlace]
  omega

theorem lt_pow_lastPlace (x : ℚ) : |x| < 10 ^ (lastPlace x + precision) := by
  rcases eq_or_ne x 0 with rfl | hx
  · rw [abs_zero]
    exact ten_zpow_pos _
  · exact (lastPlace_le_iff hx (le_max_right _ _)).mp le_rfl

theorem lastPlace_mono {x y : ℚ} (hx : x ≠ 0) (hxy : |x| ≤ |y|) : lastPlace x ≤ lastPlace y :=
  (lastPlace_le_iff hx (le_max_right _ _)).mpr (hxy.trans_lt (lt_pow_lastPlace y))

/-! ## Points of the grid -/

section grid

variable {x : ℚ} {i k : ℤ}

/-- A multiple of a power of ten that is not below the last place, counted in units of it. -/
theorem div_lastPlace (hk : lastPlace x ≤ k) :
    (i : ℚ) * 10 ^ k / 10 ^ lastPlace x = (i * 10 ^ (k - lastPlace x).toNat : ℤ) := by
  rw [ten_zpow_eq hk]
  push_cast
  rw [← mul_assoc, mul_div_cancel_right₀ _ (ten_zpow_pos _).ne']

/-- What has no place below the last one is not changed. -/
theorem nearest_of_multiple (hk : lastPlace x ≤ k) (hx : x = i * 10 ^ k) : nearest x = x := by
  have hint := div_lastPlace (i := i) hk
  rw [← hx] at hint
  rw [nearest, hint, halfEven_intCast, ← hint, div_mul_cancel₀ _ (ten_zpow_pos _).ne']

theorem nearest_le_of_le (hk : lastPlace x ≤ k) (h : x ≤ i * 10 ^ k) : nearest x ≤ i * 10 ^ k := by
  have hpos := ten_zpow_pos (lastPlace x)
  have hint := halfEven_mono (div_le_div_of_nonneg_right h hpos.le)
  rw [div_lastPlace hk, halfEven_intCast] at hint
  rw [nearest, ← le_div_iff₀ hpos, div_lastPlace hk]
  exact_mod_cast hint

theorem le_nearest_of_le (hk : lastPlace x ≤ k) (h : i * 10 ^ k ≤ x) : i * 10 ^ k ≤ nearest x := by
  have hneg := nearest_le_of_le (x := -x) (i := -i) (k := k) (by rwa [lastPlace_neg])
    (by push_cast; linarith)
  push_cast [nearest_neg] at hneg
  linarith

theorem nearest_nonneg (h : 0 ≤ x) : 0 ≤ nearest x := by
  have hle := le_nearest_of_le (x := x) (i := 0) le_rfl (by simpa using h)
  simpa using hle

end grid

/-! ## Order -/

/-- **Rounding is monotone.** -/
theorem nearest_mono : Monotone nearest := by
  have of_nonneg {x y : ℚ} (h : 0 ≤ x) (hxy : x ≤ y) : nearest x ≤ nearest y := by
    rcases h.eq_or_lt with rfl | hx
    · rw [nearest_zero]
      exact nearest_nonneg hxy
    · have hy : 0 < y := hx.trans_le hxy
      have habs : |x| ≤ |y| := by rwa [abs_of_pos hx, abs_of_pos hy]
      rcases (lastPlace_mono hx.ne' habs).eq_or_lt with heq | hlt
      · rw [nearest, nearest, heq]
        have hpos := ten_zpow_pos (lastPlace y)
        have hint := halfEven_mono (div_le_div_of_nonneg_right hxy hpos.le)
        exact mul_le_mul_of_nonneg_right (by exact_mod_cast hint) hpos.le
      · -- The power of ten with which the larger number begins is between them.
        obtain ⟨k, hk⟩ : ∃ k, k = lastPlace y + precision - 1 := ⟨_, rfl⟩
        have hprec : (precision : ℤ) = 28 := rfl
        have hq := le_max_right (Int.log 10 |x| + 1 - precision) minQuantum
        rw [← lastPlace] at hq
        have hxk : x ≤ (1 : ℤ) * 10 ^ k := by
          have hle := (lastPlace_le_iff hx.ne' (k := lastPlace y - 1) (by omega)).mp (by omega)
          rw [abs_of_pos hx] at hle
          push_cast
          rw [one_mul, hk]
          exact (hle.trans_le (ten_zpow_le (by omega))).le
        have hky : (1 : ℤ) * 10 ^ k ≤ y := by
          by_contra hnot
          have hle := (lastPlace_le_iff hy.ne' (k := lastPlace y - 1) (by omega)).mpr <| by
            rw [abs_of_pos hy]
            push_cast at hnot
            rw [one_mul, hk] at hnot
            exact (not_le.mp hnot).trans_le (ten_zpow_le (by omega))
          omega
        exact (nearest_le_of_le (by omega) hxk).trans (le_nearest_of_le (by omega) hky)
  intro x y hxy
  rcases le_total 0 x with hx | hx
  · exact of_nonneg hx hxy
  · rcases le_total 0 y with hy | hy
    · have hneg := nearest_nonneg (neg_nonneg.mpr hx)
      rw [nearest_neg] at hneg
      exact (neg_nonneg.mp hneg).trans (nearest_nonneg hy)
    · have hneg := of_nonneg (neg_nonneg.mpr hy) (neg_le_neg hxy)
      rw [nearest_neg, nearest_neg] at hneg
      exact neg_le_neg_iff.mp hneg

theorem nearest_abs (x : ℚ) : nearest |x| = |nearest x| := by
  rcases le_total 0 x with hx | hx
  · rw [abs_of_nonneg hx, abs_of_nonneg (nearest_nonneg hx)]
  · have hle := nearest_mono hx
    rw [nearest_zero] at hle
    rw [abs_of_nonpos hx, abs_of_nonpos hle, nearest_neg]

/-! ## Numbers that are kept -/

/-- A number that can be kept: it has at most 28 digits and none below the smallest place. -/
def IsKept (x : ℚ) : Prop :=
  ∃ m k : ℤ, |m| < 10 ^ precision ∧ minQuantum ≤ k ∧ x = m * 10 ^ k

/-- A number of at most 28 digits, wherever they stand. -/
def IsShort (x : ℚ) : Prop :=
  ∃ m k : ℤ, |m| < 10 ^ precision ∧ x = m * 10 ^ k

/-- **What can be kept is not changed.** -/
theorem nearest_of_isKept {x : ℚ} (h : IsKept x) : nearest x = x := by
  obtain ⟨m, k, hm, hk, hx⟩ := h
  rcases eq_or_ne x 0 with rfl | hne
  · exact nearest_zero
  · refine nearest_of_multiple ((lastPlace_le_iff hne hk).mpr ?_) hx
    have hm' : |(m : ℚ)| < 10 ^ precision := by exact_mod_cast hm
    rw [hx, abs_mul, abs_of_pos (ten_zpow_pos k), add_comm, ten_zpow_add, zpow_natCast]
    exact mul_lt_mul_of_pos_right hm' (ten_zpow_pos k)

/-- **What is rounded can be kept.** -/
theorem nearest_isKept (x : ℚ) : IsKept (nearest x) := by
  obtain ⟨q, hq⟩ : ∃ q, q = lastPlace x := ⟨_, rfl⟩
  have hpos := ten_zpow_pos q
  have hmin : minQuantum ≤ q := hq ▸ le_max_right _ _
  have hlt : |x / 10 ^ q| < 10 ^ precision := by
    rw [abs_div, abs_of_pos hpos, div_lt_iff₀ hpos, ← zpow_natCast, ← ten_zpow_add, add_comm, hq]
    exact lt_pow_lastPlace x
  obtain ⟨hlow, hhigh⟩ := abs_lt.mp hlt
  have hlow' : halfEven ((-10 ^ precision : ℤ) : ℚ) ≤ halfEven (x / 10 ^ q) :=
    halfEven_mono (by push_cast; exact hlow.le)
  have hhigh' : halfEven (x / 10 ^ q) ≤ halfEven ((10 ^ precision : ℤ) : ℚ) :=
    halfEven_mono (by push_cast; exact hhigh.le)
  rw [halfEven_intCast] at hlow' hhigh'
  rcases (abs_le.mpr ⟨hlow', hhigh'⟩).lt_or_eq with hle | heq
  · exact ⟨_, q, hle, hmin, by rw [nearest, ← hq]⟩
  · -- Rounding up gave a power of ten, which has one digit.
    have hpower (i : ℤ) (hi : |i| = 1) (h : halfEven (x / 10 ^ q) = i * 10 ^ precision) :
        IsKept (nearest x) := by
      refine ⟨i, precision + q, ?_, by omega, ?_⟩
      · rw [hi]
        exact one_lt_pow₀ (by norm_num) (by decide)
      · rw [nearest, ← hq, h, ten_zpow_add, zpow_natCast]
        push_cast
        ring
    rcases eq_or_eq_neg_of_abs_eq heq with h | h
    · exact hpower 1 (by norm_num) (by rw [h, one_mul])
    · exact hpower (-1) (by norm_num) (by rw [h, neg_one_mul])

theorem nearest_nearest (x : ℚ) : nearest (nearest x) = nearest x :=
  nearest_of_isKept (nearest_isKept x)

/-! ## The error -/

/-- Half a unit of the last place bounds the error. -/
theorem nearest_error_lastPlace (x : ℚ) : |nearest x - x| ≤ 10 ^ lastPlace x / 2 := by
  have hpos := ten_zpow_pos (lastPlace x)
  have hx : x = x / 10 ^ lastPlace x * 10 ^ lastPlace x := (div_mul_cancel₀ x hpos.ne').symm
  calc |nearest x - x|
      = |(halfEven (x / 10 ^ lastPlace x) - x / 10 ^ lastPlace x) * 10 ^ lastPlace x| := by
        rw [sub_mul, ← hx, nearest]
    _ = |halfEven (x / 10 ^ lastPlace x) - x / 10 ^ lastPlace x| * 10 ^ lastPlace x := by
        rw [abs_mul, abs_of_pos hpos]
    _ ≤ 1 / 2 * 10 ^ lastPlace x := mul_le_mul_of_nonneg_right (halfEven_error _) hpos.le
    _ = 10 ^ lastPlace x / 2 := by ring

/-- The largest relative error of a number that is not very small. -/
def unitRoundoff : ℚ := 5 / 10 ^ 28

theorem unitRoundoff_pos : 0 < unitRoundoff := by
  norm_num [unitRoundoff]

theorem pow_eq_two_mul_unitRoundoff : (10 : ℚ) ^ (-27 : ℤ) = 2 * unitRoundoff := by
  norm_num [unitRoundoff]

/-- A number that has all 28 digits above the smallest place. -/
def IsNormal (x : ℚ) : Prop :=
  10 ^ (-999999 : ℤ) ≤ |x|

/-- Nothing, or a number that has all 28 digits above the smallest place. -/
def IsZeroOrNormal (x : ℚ) : Prop :=
  x = 0 ∨ IsNormal x

/-- Few digits of a number that is not very small can be kept. -/
theorem IsShort.isKept {x : ℚ} (h : IsShort x) (hx : IsZeroOrNormal x) : IsKept x := by
  rcases hx with rfl | hx
  · exact ⟨0, 0, by decide, by decide, by simp⟩
  · obtain ⟨m, k, hm, rfl⟩ := h
    refine ⟨m, k, hm, ?_, rfl⟩
    have hprec : (precision : ℤ) = 28 := rfl
    have hmin : minQuantum = -1000026 := rfl
    have hm' : |(m : ℚ)| < 10 ^ (precision : ℤ) := by
      rw [zpow_natCast]
      exact_mod_cast hm
    have hlt : (10 : ℚ) ^ (-999999 : ℤ) < 10 ^ (precision + k : ℤ) := by
      calc (10 : ℚ) ^ (-999999 : ℤ) ≤ |(m : ℚ) * 10 ^ k| := hx
        _ = |(m : ℚ)| * 10 ^ k := by rw [abs_mul, abs_of_pos (ten_zpow_pos k)]
        _ < 10 ^ (precision : ℤ) * 10 ^ k := mul_lt_mul_of_pos_right hm' (ten_zpow_pos k)
        _ = 10 ^ (precision + k : ℤ) := (ten_zpow_add _ _).symm
    have hexp := (zpow_lt_zpow_iff_right₀ (by norm_num : (1 : ℚ) < 10)).mp hlt
    omega

/-- The unit of the last place is at most one part in `10 ^ 27`, if the leading digit determines the
place. -/
theorem pow_lastPlace_le_of_eq {x : ℚ} (hx : x ≠ 0)
    (h : lastPlace x = Int.log 10 |x| + 1 - precision) :
    10 ^ lastPlace x ≤ 2 * (unitRoundoff * |x|) := by
  have hlog := Int.zpow_log_le_self (b := 10) (by norm_num) (abs_pos.mpr hx)
  have hsplit : lastPlace x = -27 + Int.log 10 |x| := by
    have hprec : (precision : ℤ) = 28 := rfl
    omega
  rw [hsplit, ten_zpow_add, ← mul_assoc, ← pow_eq_two_mul_unitRoundoff]
  exact mul_le_mul_of_nonneg_left (by exact_mod_cast hlog) (ten_zpow_pos _).le

theorem pow_lastPlace_le {x : ℚ} (hx : x ≠ 0) :
    10 ^ lastPlace x ≤ 2 * (unitRoundoff * |x|) ∨ lastPlace x = minQuantum := by
  rcases max_choice (Int.log 10 |x| + 1 - precision) minQuantum with h | h
  · exact .inl (pow_lastPlace_le_of_eq hx h)
  · exact .inr h

theorem lastPlace_of_isNormal {x : ℚ} (h : IsNormal x) :
    lastPlace x = Int.log 10 |x| + 1 - precision := by
  have hx : 0 < |x| := (ten_zpow_pos _).trans_le h
  have hlog := (Int.zpow_le_iff_le_log (b := 10) (by norm_num) hx).mp (by exact_mod_cast h)
  have hprec : (precision : ℤ) = 28 := rfl
  have hmin : minQuantum = -1000026 := rfl
  rw [lastPlace]
  omega

/-- **Rounding commutes with moving the point**, unless the number becomes very small. -/
theorem nearest_mul_zpow {x : ℚ} {k : ℤ} (hx : IsZeroOrNormal x)
    (hxk : IsZeroOrNormal (x * 10 ^ k)) : nearest (x * 10 ^ k) = nearest x * 10 ^ k := by
  have hpos := ten_zpow_pos k
  rcases eq_or_ne x 0 with rfl | hne
  · rw [zero_mul, nearest_zero, zero_mul]
  · have hnormal := hx.resolve_left hne
    have hnormal' := hxk.resolve_left (mul_ne_zero hne hpos.ne')
    have hlast : lastPlace (x * 10 ^ k) = lastPlace x + k := by
      rw [lastPlace_of_isNormal hnormal, lastPlace_of_isNormal hnormal', abs_mul, abs_of_pos hpos,
        log_mul_zpow (abs_pos.mpr hne)]
      ring
    rw [nearest, nearest, hlast, ten_zpow_add, mul_div_mul_right _ _ hpos.ne', mul_assoc]

/-- **The error of rounding** is a relative one, or half a unit of the smallest place. -/
theorem nearest_error (x : ℚ) :
    |nearest x - x| ≤ unitRoundoff * |x| + 10 ^ minQuantum / 2 := by
  have hroundoff : 0 ≤ unitRoundoff * |x| := mul_nonneg unitRoundoff_pos.le (abs_nonneg x)
  have hsmall := ten_zpow_pos minQuantum
  rcases eq_or_ne x 0 with rfl | hx
  · rw [nearest_zero, sub_zero, abs_zero]
    linarith [abs_zero (α := ℚ)]
  · have herror := nearest_error_lastPlace x
    rcases pow_lastPlace_le hx with h | h
    · linarith
    · rw [h] at herror
      linarith

/-- The error of a number, however small, is at most that of a larger one that is not very small. -/
theorem nearest_error_le {x b : ℚ} (hx : |x| ≤ b) (hb : IsNormal b) :
    |nearest x - x| ≤ unitRoundoff * b := by
  have hb0 : 0 ≤ b := (abs_nonneg x).trans hx
  rcases eq_or_ne x 0 with rfl | hne
  · rw [nearest_zero, sub_zero, abs_zero]
    exact mul_nonneg unitRoundoff_pos.le hb0
  · have hbne : b ≠ 0 := fun h => hne (abs_nonpos_iff.mp (h ▸ hx))
    have hplace := pow_lastPlace_le_of_eq hbne (lastPlace_of_isNormal hb)
    have hmono := ten_zpow_le (lastPlace_mono hne (hx.trans (le_abs_self b)))
    rw [abs_of_nonneg hb0] at hplace
    linarith [nearest_error_lastPlace x]

/-- The error of a number that is not very small is a relative one. -/
theorem nearest_error_of_isNormal {x : ℚ} (h : IsNormal x) :
    |nearest x - x| ≤ unitRoundoff * |x| :=
  nearest_error_le le_rfl (by rwa [IsNormal, abs_abs])

theorem nearest_error_of_isZeroOrNormal {x : ℚ} (h : IsZeroOrNormal x) :
    |nearest x - x| ≤ unitRoundoff * |x| := by
  rcases h with rfl | h
  · rw [nearest_zero, sub_zero, abs_zero, mul_zero]
  · exact nearest_error_of_isNormal h

/-- The largest relative error of several roundings, one after the other. -/
def roundingError (k : Nat) : ℚ :=
  (1 + unitRoundoff) ^ k - 1

theorem one_le_pow_unitRoundoff (k : Nat) : 1 ≤ (1 + unitRoundoff) ^ k :=
  one_le_pow₀ (by linarith [unitRoundoff_pos])

theorem roundingError_nonneg (k : Nat) : 0 ≤ roundingError k :=
  sub_nonneg.mpr (one_le_pow_unitRoundoff k)

theorem roundingError_mono : Monotone roundingError := by
  intro j k hjk
  have hpow := pow_le_pow_right₀ (by linarith [unitRoundoff_pos] : 1 ≤ 1 + unitRoundoff) hjk
  exact sub_le_sub_right hpow 1

/-- One more rounding adds to the error: `v` is counted in units of `f` and has been found instead
of `w`, and `z` is what it is rounded to. -/
theorem error_step {k : Nat} {v w z f s ε η : ℚ} (hf : 0 < f) (hw : |w| ≤ s)
    (hv : |v * f - w| ≤ roundingError k * s + ε) (hz : |z - v| ≤ unitRoundoff * |v| + η) :
    |z * f - w| ≤ roundingError (k + 1) * s + ((1 + unitRoundoff) * ε + f * η) := by
  have hu := unitRoundoff_pos
  have hmagnitude : |v| * f ≤ s + (roundingError k * s + ε) := by
    have htri := abs_sub_abs_le_abs_sub (v * f) w
    rw [abs_mul, abs_of_pos hf] at htri
    linarith
  have hmul := mul_le_mul_of_nonneg_left hmagnitude hu.le
  calc |z * f - w| ≤ |z * f - v * f| + |v * f - w| := abs_sub_le _ _ _
    _ = |z - v| * f + |v * f - w| := by rw [← sub_mul, abs_mul, abs_of_pos hf]
    _ ≤ (unitRoundoff * |v| + η) * f + (roundingError k * s + ε) :=
        add_le_add (mul_le_mul_of_nonneg_right hz hf.le) hv
    _ = unitRoundoff * (|v| * f) + (roundingError k * s + ε) + f * η := by ring
    _ ≤ unitRoundoff * (s + (roundingError k * s + ε)) + (roundingError k * s + ε) + f * η := by
        linarith
    _ = roundingError (k + 1) * s + ((1 + unitRoundoff) * ε + f * η) := by
        rw [roundingError, roundingError, pow_succ]
        ring

/-- Numbers that differ by more than one part in `10 ^ 27` are told apart. -/
theorem nearest_lt_of_apart {x y : ℚ} (hx : IsNormal x) (hy : IsNormal y)
    (h : 2 * unitRoundoff * max |x| |y| < y - x) : nearest x < nearest y := by
  have hpos := unitRoundoff_pos
  have hex := (abs_le.mp (nearest_error_of_isNormal hx)).2
  have hey := (abs_le.mp (nearest_error_of_isNormal hy)).1
  have hmx := mul_le_mul_of_nonneg_left (le_max_left |x| |y|) hpos.le
  have hmy := mul_le_mul_of_nonneg_left (le_max_right |x| |y|) hpos.le
  linarith

/-! ## The largest number -/

/-- The largest number that an operation answers. -/
def largest : ℚ := (10 ^ precision - 1) * 10 ^ (maxExponent + 1 - precision)

/-- A number that is kept is beyond the largest one if its leading digit is. -/
theorem largest_lt_iff {x : ℚ} (h : IsKept x) : largest < |x| ↔ 10 ^ (maxExponent + 1) ≤ |x| := by
  obtain ⟨t, ht⟩ : ∃ t, t = maxExponent + 1 - precision := ⟨_, rfl⟩
  have hpos := ten_zpow_pos t
  have htop : (10 : ℚ) ^ (maxExponent + 1) = 10 ^ precision * 10 ^ t := by
    rw [← zpow_natCast, ← ten_zpow_add, ht, add_sub_cancel]
  rw [largest, ← ht, htop]
  constructor
  · intro hlt
    obtain ⟨m, k, hm, -, rfl⟩ := h
    have hm' : |(m : ℚ)| < 10 ^ precision := by exact_mod_cast hm
    rw [abs_mul, abs_of_pos (ten_zpow_pos k)] at hlt ⊢
    rcases le_or_gt t k with hk | hk
    · -- The number is a multiple of the last place of the largest one.
      rw [ten_zpow_eq hk, ← mul_assoc] at hlt ⊢
      have hint := lt_of_mul_lt_mul_right hlt hpos.le
      refine mul_le_mul_of_nonneg_right ?_ hpos.le
      have hint' : (10 ^ precision - 1 : ℤ) < |m| * 10 ^ (k - t).toNat := by exact_mod_cast hint
      exact_mod_cast (by omega : (10 ^ precision : ℤ) ≤ |m| * 10 ^ (k - t).toNat)
    · -- The number has too few digits for its last place.
      exfalso
      have hk' : (10 : ℚ) ^ k ≤ 10 ^ t / 10 := by
        rw [le_div_iff₀ (by norm_num), ← zpow_add_one₀ (by norm_num)]
        exact ten_zpow_le hk
      have hle : |(m : ℚ)| * 10 ^ k ≤ 10 ^ precision * (10 ^ t / 10) :=
        mul_le_mul hm'.le hk' (ten_zpow_pos k).le (by positivity)
      have hten : (10 : ℚ) ≤ 10 ^ precision := by
        norm_num [precision]
      nlinarith
  · intro hle
    refine lt_of_lt_of_le ?_ hle
    linarith

/-- The largest number can be kept, so that rounding does not lead beyond it. -/
theorem abs_nearest_le_largest {x : ℚ} (h : |x| ≤ largest) : |nearest x| ≤ largest := by
  have hkept : IsKept largest := by
    refine ⟨10 ^ precision - 1, maxExponent + 1 - precision, by decide, by decide, ?_⟩
    rw [largest]
    push_cast
    rfl
  calc |nearest x| = nearest |x| := (nearest_abs x).symm
    _ ≤ nearest largest := nearest_mono h
    _ = largest := nearest_of_isKept hkept

end PerfLedger.Decimal
