import PerfLedger.Proofs.Decimal.Value

/-!
# What operations answer

An operation on finite numbers answers the number nearest to the exact result, or signals an
overflow if that is beyond the largest number (`Answers`). So it is for sums (`add_answers`,
`sub_answers`), products (`mul_answers`), quotients (`div_answers`) and absolute values
(`abs_answers`); their results are what `round` gives of the exact ones (`round_answers`).

A quotient is not computed in full. Its digits are followed by a sticky one, which stands for the
rest: it lies between the same points of a grid as the exact quotient does, and the halves of the
last place are on that grid.
-/

namespace PerfLedger.Decimal

/-- An operation of which the exact result is `x` answers the number nearest to `x`, or signals an
overflow. -/
inductive Answers (x : ℚ) : Except Signal Decimal → Prop where
  | ok {d : Decimal} (finite : d.IsFinite) (value : d.toRat = nearest x)
      (fits : |nearest x| ≤ largest) : Answers x (.ok d)
  | overflow (beyond : largest < |nearest x|) : Answers x (.error .overflow)

section answers

variable {x : ℚ} {r r' : Except Signal Decimal}

theorem Answers.of_alike (h : Answers x r) (halike : Alike r r') : Answers x r' := by
  cases halike with
  | ok same =>
    cases h with
    | ok finite value fits => exact .ok (same.isFinite finite) (same.toRat_eq ▸ value) fits
  | error e => exact h

theorem Answers.congr {y : ℚ} (h : Answers x r) (hxy : nearest x = nearest y) : Answers y r := by
  cases h with
  | ok finite value fits => exact .ok finite (hxy ▸ value) (hxy ▸ fits)
  | overflow beyond => exact .overflow (hxy ▸ beyond)

theorem Answers.exists_ok (h : Answers x r) (hfits : |nearest x| ≤ largest) :
    ∃ d, r = .ok d ∧ d.IsFinite ∧ d.toRat = nearest x := by
  cases h with
  | ok finite value fits => exact ⟨_, rfl, finite, value⟩
  | overflow beyond => exact absurd beyond (not_lt.mpr hfits)

theorem Answers.eq_overflow_iff (h : Answers x r) :
    r = .error .overflow ↔ largest < |nearest x| := by
  cases h with
  | ok finite value fits => simp [not_lt.mpr fits]
  | overflow beyond => simp [beyond]

theorem Answers.spec {d : Decimal} (h : Answers x (.ok d)) : d.IsFinite ∧ d.toRat = nearest x := by
  cases h with
  | ok finite value fits => exact ⟨finite, value⟩

/-- The only signal is an overflow. -/
theorem Answers.eq_overflow {e : Signal} (h : Answers x (.error e)) : e = .overflow := by
  cases h with
  | overflow beyond => rfl

end answers

/-! ## Rounding -/

/-- The quantum is the last place, or the exponent if there are no digits down there. -/
theorem quantum_eq {n : Nat} (hn : 0 < n) (e : Int) :
    quantum n e = max e (lastPlace (n * 10 ^ e)) := by
  rw [lastPlace, abs_of_nonneg (coefficient_nonneg n e), log_coefficient hn, quantum]
  omega

/-- **The digits that are kept are those of the nearest number.** -/
theorem coefficientAt_value {n : Nat} (hn : 0 < n) (e : Int) :
    (coefficientAt n e (quantum n e) : ℚ) * 10 ^ quantum n e = nearest (n * 10 ^ e) := by
  obtain ⟨q, hq⟩ : ∃ q, q = lastPlace ((n : ℚ) * 10 ^ e) := ⟨_, rfl⟩
  rw [coefficientAt_eq, quantum_eq hn, ← hq]
  rcases le_total e q with hle | hle
  · have hpos : (0 : ℚ) < 10 ^ e := ten_zpow_pos e
    have hdiv : (n : ℚ) * 10 ^ e / 10 ^ q = (n : ℚ) / (10 ^ (q - e).toNat : Nat) := by
      rw [ten_zpow_eq hle]
      push_cast
      rw [mul_comm ((10 : ℚ) ^ _), mul_comm (n : ℚ), mul_div_mul_left _ _ hpos.ne']
    rw [max_eq_right hle, nearest, ← hq, hdiv, halfEven_div n (Nat.pow_pos (by decide)),
      Int.cast_natCast]
  · -- No digit is below the last place.
    have hexact := nearest_of_multiple (x := (n : ℚ) * 10 ^ e) (i := n) (hq ▸ hle)
      (by rw [Int.cast_natCast])
    rw [max_eq_left hle, hexact, Int.sub_self, Int.toNat_zero, Nat.pow_zero]
    have hself := divHalfEven_mul_self n Nat.one_pos
    rw [Nat.mul_one] at hself
    rw [hself]

theorem rounded_value {n : Nat} (hn : 0 < n) (e : Int) :
    ((rounded n e).1 : ℚ) * 10 ^ (rounded n e).2 = nearest (n * 10 ^ e) := by
  rw [← coefficientAt_value hn]
  unfold rounded
  dsimp only
  split
  · next hcarry =>
    rw [hcarry, add_comm, ten_zpow_add]
    norm_num [precision]
    ring
  · rfl

/-- A number that is rounded to nothing has no digit above the smallest place. -/
theorem rounded_zero {n : Nat} (hn : 0 < n) {e : Int} (h : (rounded n e).1 = 0) :
    (rounded n e).2 = minQuantum := by
  have hpos := coefficient_pos hn e
  have hzero : nearest ((n : ℚ) * 10 ^ e) = 0 := by
    rw [← rounded_value hn, h, Nat.cast_zero, zero_mul]
  have hlast : lastPlace ((n : ℚ) * 10 ^ e) = minQuantum := by
    have herror := nearest_error_lastPlace ((n : ℚ) * 10 ^ e)
    rw [hzero, zero_sub, abs_neg, abs_of_pos hpos] at herror
    refine (pow_lastPlace_le hpos.ne').resolve_left fun hle => ?_
    rw [abs_of_pos hpos, unitRoundoff] at hle
    linarith
  have hexponent : e ≤ minQuantum := by
    by_contra hlt
    have hexact := nearest_of_multiple (x := (n : ℚ) * 10 ^ e) (i := n) (k := e) (by omega)
      (by rw [Int.cast_natCast])
    rw [hzero] at hexact
    exact hpos.ne hexact
  unfold rounded at h ⊢
  dsimp only at h ⊢
  split
  · next hcarry =>
    rw [if_pos hcarry] at h
    have hne : Nat.pow 10 (precision - 1) ≠ 0 := by decide
    exact absurd h hne
  · rw [quantum_eq hn, hlast, max_eq_right hexponent]

/-- A result is refused if its leading digit is beyond the largest exponent. -/
theorem exponent_gt_iff {n : Nat} (hn : 0 < n) (e : Int) :
    (rounded n e).2 + digitCount (rounded n e).1 - 1 > maxExponent ↔
      largest < |nearest (n * 10 ^ e)| := by
  rw [largest_lt_iff (nearest_isKept _), ← rounded_value hn, abs_of_nonneg (coefficient_nonneg _ _)]
  rcases Nat.eq_zero_or_pos (rounded n e).1 with hzero | hpos
  · have hone : digitCount 0 = 1 := by rw [digitCount]; rfl
    have hnot : ¬(10 : ℚ) ^ (maxExponent + 1) ≤ 0 := not_le.mpr (ten_zpow_pos _)
    rw [rounded_zero hn hzero, hzero, hone, Nat.cast_zero, zero_mul, iff_false_right hnot]
    decide
  · have hlog := Int.zpow_le_iff_le_log (b := 10) (by norm_num) (x := maxExponent + 1)
      (coefficient_pos hpos (rounded n e).2)
    rw [Nat.cast_ofNat, log_coefficient hpos] at hlog
    rw [hlog]
    omega

theorem largest_nonneg : 0 ≤ largest :=
  mul_nonneg (by norm_num [precision]) (ten_zpow_pos _).le

/-- **What is rounded is the nearest number**, unless that is beyond the largest one. -/
theorem round_answers (s : Bool) (n : Nat) (e : Int) :
    Answers (signed s (n * 10 ^ e)) (round s n e) := by
  rcases Nat.eq_zero_or_pos n with rfl | hn
  · have hzero : nearest (signed s ((0 : Nat) * 10 ^ e)) = 0 := by
      rw [Nat.cast_zero, zero_mul, signed_zero, nearest_zero]
    rw [round_zero]
    refine .ok trivial ?_ ?_
    · rw [hzero, toRat_finite, Nat.cast_zero, zero_mul, signed_zero]
    · rw [hzero, abs_zero]
      exact largest_nonneg
  · have hsigned : nearest (signed s (n * 10 ^ e)) = signed s (nearest (n * 10 ^ e)) :=
      nearest_signed s _
    have hvalue := rounded_value hn e
    have hgt := exponent_gt_iff hn e
    rcases hr : rounded n e with ⟨m, q⟩
    rw [hr] at hvalue hgt
    rw [round_of_rounded (by omega) hr]
    split
    · next hbeyond =>
      refine .overflow ?_
      rw [hsigned, abs_signed]
      exact hgt.mp hbeyond
    · next hfits =>
      refine .ok trivial ?_ ?_
      · rw [hsigned, toRat_finite, hvalue]
      · rw [hsigned, abs_signed]
        exact not_lt.mp fun hlt => hfits (hgt.mpr hlt)

theorem round_negative {s : Bool} {n : Nat} {e : Int} {d : Decimal} (h : round s n e = .ok d) :
    d.negative = s := by
  unfold round at h
  split at h
  · rw [← Except.ok.inj h]
    rfl
  · rcases hr : rounded n e with ⟨m, q⟩
    rw [hr] at h
    dsimp only at h
    split at h
    · exact absurd h (by simp)
    · rw [← Except.ok.inj h]
      rfl

/-! ## Products -/

section operations

variable {a b d : Decimal}

theorem nanOf?_of_finite (ha : a.IsFinite) (hb : b.IsFinite) : nanOf? a b = none :=
  nanOf?_eq_none.mpr ⟨ha.isNaN_eq, hb.isNaN_eq⟩

/-- **A product is the exact product, rounded.** -/
theorem mul_answers (ha : a.IsFinite) (hb : b.IsFinite) :
    Answers (a.toRat * b.toRat) (a.mul b) := by
  obtain ⟨s, n, e, rfl⟩ := ha.exists_eq
  obtain ⟨t, m, f, rfl⟩ := hb.exists_eq
  have hround := round_answers (s ^^ t) (n * m) (e + f)
  have hexact : ((n * m : Nat) : ℚ) * 10 ^ (e + f) = n * 10 ^ e * (m * 10 ^ f) := by
    rw [ten_zpow_add]
    push_cast
    ring
  rwa [hexact, signed_xor] at hround

theorem mul_negative (ha : a.IsFinite) (hb : b.IsFinite) (h : a.mul b = .ok d) :
    d.negative = (a.negative ^^ b.negative) := by
  obtain ⟨s, n, e, rfl⟩ := ha.exists_eq
  obtain ⟨t, m, f, rfl⟩ := hb.exists_eq
  exact round_negative h

/-! ## Sums -/

theorem exactSum_answers (s : Bool) (x : Nat) (t : Bool) (y : Nat) (l : Int) :
    Answers (signed s (x * 10 ^ l) + signed t (y * 10 ^ l)) (exactSum s x t y l) := by
  have sum {x y : Nat} (s : Bool) : signed s ((x + y : Nat) * 10 ^ l)
      = signed s (x * 10 ^ l) + signed s (y * 10 ^ l) := by
    cases s <;> simp only [signed] <;> push_cast <;> ring
  have difference {x y : Nat} (h : y ≤ x) (s : Bool) : signed s ((x - y : Nat) * 10 ^ l)
      = signed s (x * 10 ^ l) + signed (!s) (y * 10 ^ l) := by
    cases s <;> simp [signed, Nat.cast_sub h] <;> ring
  by_cases hst : s = t
  · obtain rfl := hst
    rw [exactSum_of_eq rfl, ← sum]
    exact round_answers s (x + y) l
  · obtain rfl : t = !s := by
      cases s <;> cases t <;> simp_all
    rw [exactSum_of_ne hst]
    rcases Nat.lt_trichotomy x y with hlt | rfl | hgt
    · have hround := round_answers (!s) (y - x) l
      rw [difference hlt.le, Bool.not_not, add_comm] at hround
      rwa [if_neg (by omega), if_neg (by omega)]
    · have hround := round_answers false 0 l
      have hzero : signed s ((x : ℚ) * 10 ^ l) + signed (!s) (x * 10 ^ l)
          = signed false ((0 : Nat) * 10 ^ l) := by
        cases s <;> simp [signed]
      rwa [if_pos rfl, hzero]
    · have hround := round_answers s (x - y) l
      rw [difference hgt.le] at hround
      rwa [if_neg (by omega), if_pos hgt]

/-- **A sum is the exact sum, rounded.** -/
theorem add_answers (ha : a.IsFinite) (hb : b.IsFinite) :
    Answers (a.toRat + b.toRat) (a.add b) := by
  rw [add, nanOf?_of_finite ha hb, Option.getD_none]
  obtain ⟨s, n, e, rfl⟩ := ha.exists_eq
  obtain ⟨t, m, f, rfl⟩ := hb.exists_eq
  obtain ⟨l, hl⟩ : ∃ l, l = min e f := ⟨_, rfl⟩
  have he : l ≤ e := by omega
  have hf : l ≤ f := by omega
  have hsum := exactSum_answers s (n * 10 ^ (e - l).toNat) t (m * 10 ^ (f - l).toNat) l
  rw [← coefficient_lower n he, ← coefficient_lower m hf] at hsum
  exact hsum.of_alike (addNumbers_finite s n t m he hf).symm

theorem IsFinite.negate (h : a.IsFinite) : a.negate.IsFinite := by
  obtain ⟨s, n, e, rfl⟩ := h.exists_eq
  trivial

/-- **A difference is the exact difference, rounded.** -/
theorem sub_answers (ha : a.IsFinite) (hb : b.IsFinite) :
    Answers (a.toRat - b.toRat) (a.sub b) := by
  have hadd := add_answers ha hb.negate
  rw [toRat_negate, ← sub_eq_add_neg, add, nanOf?_of_finite ha hb.negate, Option.getD_none] at hadd
  rwa [sub, nanOf?_of_finite ha hb, Option.getD_none]

/-- **An absolute value is rounded.** -/
theorem abs_answers (ha : a.IsFinite) : Answers |a.toRat| a.abs := by
  obtain ⟨s, n, e, rfl⟩ := ha.exists_eq
  rw [abs_toRat_finite]
  exact round_answers false n e

end operations

/-! ## Quotients -/

section sticky

variable {q : Nat} {v w : ℚ} {g : ℤ} (hq : 10 ^ precision ≤ q) (hv : (q : ℚ) < v ∧ v < q + 1)
  (hw : (q : ℚ) < w ∧ w < q + 1)

include hq hv hw

/-- No power of ten lies between two numbers whose integer parts are one. -/
theorem lastPlace_le_of_between : lastPlace (v * 10 ^ g) ≤ lastPlace (w * 10 ^ g) := by
  have hpos := ten_zpow_pos g
  have hq' : (10 : ℚ) ^ precision ≤ q := by exact_mod_cast hq
  have hone : (1 : ℚ) ≤ 10 ^ precision := one_le_pow₀ (by norm_num)
  have hv0 : 0 < v := by linarith
  have hw0 : 0 < w := by linarith
  obtain ⟨k, hk⟩ : ∃ k, k = lastPlace (w * 10 ^ g) := ⟨_, rfl⟩
  have hlt := lt_pow_lastPlace (w * 10 ^ g)
  rw [← hk, abs_of_pos (mul_pos hw0 hpos)] at hlt
  rw [← hk, lastPlace_le_iff (mul_pos hv0 hpos).ne' (hk ▸ le_max_right _ _),
    abs_of_pos (mul_pos hv0 hpos)]
  rcases le_or_gt g (k + precision) with hle | hgt
  · rw [ten_zpow_eq hle] at hlt ⊢
    have hint := lt_of_mul_lt_mul_right hlt hpos.le
    have hsucc : (q : ℚ) + 1 ≤ (10 ^ (k + precision - g).toNat : ℤ) := by
      have hcast : ((q : ℤ) : ℚ) < (10 ^ (k + precision - g).toNat : ℤ) := by
        push_cast at hint ⊢
        linarith
      exact_mod_cast hcast
    exact mul_lt_mul_of_pos_right (hv.2.trans_le hsucc) hpos
  · exfalso
    have hpow : (10 : ℚ) ^ (k + precision) ≤ 10 ^ g := ten_zpow_le hgt.le
    nlinarith

/-- The digits below the integer part do not count, as long as there are any. -/
theorem nearest_eq_of_between : nearest (v * 10 ^ g) = nearest (w * 10 ^ g) := by
  have hpos := ten_zpow_pos g
  have hlast : lastPlace (v * 10 ^ g) = lastPlace (w * 10 ^ g) :=
    le_antisymm (lastPlace_le_of_between hq hv hw) (lastPlace_le_of_between hq hw hv)
  obtain ⟨k, hk⟩ : ∃ k, k = lastPlace (w * 10 ^ g) := ⟨_, rfl⟩
  rw [nearest, nearest, hlast, ← hk]
  -- The last place is above the unit of the integer part.
  have hgk : g < k := by
    by_contra hle
    have hq' : (10 : ℚ) ^ precision ≤ q := by exact_mod_cast hq
    have hone : (0 : ℚ) < 10 ^ precision := by positivity
    have hlt := lt_pow_lastPlace (w * 10 ^ g)
    rw [← hk, abs_of_pos (mul_pos (by linarith) hpos), add_comm, ten_zpow_add, zpow_natCast] at hlt
    have hpow : (10 : ℚ) ^ k ≤ 10 ^ g := ten_zpow_le (not_lt.mp hle)
    nlinarith
  have hscale (z : ℚ) : z * 10 ^ g / 10 ^ k * ((10 ^ (k - g).toNat : ℤ) : ℚ) = z := by
    have hne := (ten_zpow_pos k).ne'
    rw [div_mul_eq_mul_div, mul_assoc, mul_comm ((10 : ℚ) ^ g), ← ten_zpow_eq hgk.le,
      mul_div_cancel_right₀ _ hne]
  have heven : Even (10 ^ (k - g).toNat : ℤ) := by
    rw [Int.even_pow]
    exact ⟨by decide, by omega⟩
  have hint := halfEven_eq_of_between (x := v * 10 ^ g / 10 ^ k) (y := w * 10 ^ g / 10 ^ k)
    (i := q) (by positivity) heven
    (by rw [hscale]; exact_mod_cast hv) (by rw [hscale]; exact_mod_cast hw)
  rw [hint]

end sticky

section quotient

variable {n m : Nat} {e f u : Int}

/-- The quotient that is computed has two digits more than are kept. -/
theorem pow_le_quotient (hn : 0 < n) (hm : 0 < m)
    (hu : (digitCount m : Int) - digitCount n + precision + 1 = u) :
    10 ^ precision ≤ n * 10 ^ u.toNat / (m * 10 ^ (-u).toNat) := by
  have hd := digitCount_pos n
  rw [Nat.le_div_iff_mul_le (Nat.mul_pos hm (Nat.pow_pos (by decide)))]
  calc 10 ^ precision * (m * 10 ^ (-u).toNat)
      ≤ 10 ^ precision * (10 ^ digitCount m * 10 ^ (-u).toNat) :=
        Nat.mul_le_mul_left _ (Nat.mul_le_mul_right _ (lt_pow_digitCount m).le)
    _ = 10 ^ (digitCount n - 1) * 10 ^ u.toNat := by
        rw [← Nat.pow_add, ← Nat.pow_add, ← Nat.pow_add]
        congr 1
        omega
    _ ≤ n * 10 ^ u.toNat := Nat.mul_le_mul_right _ (pow_le_of_pos hn)

/-- The quotient in units of the last digit that is computed. -/
theorem quotient_eq (n : Nat) {m : Nat} (hm : 0 < m) (e f u : Int) :
    (n : ℚ) * 10 ^ e / (m * 10 ^ f) =
      ((n * 10 ^ u.toNat : Nat) : ℚ) / (m * 10 ^ (-u).toNat : Nat) * 10 ^ (e - f - u) := by
  have hm' : (m : ℚ) ≠ 0 := by exact_mod_cast hm.ne'
  have hpow : (10 : ℚ) ^ e / 10 ^ f = 10 ^ u.toNat / 10 ^ (-u).toNat * 10 ^ (e - f - u) := by
    have hsplit : e - f = (u.toNat : ℤ) - ((-u).toNat : ℤ) + (e - f - u) := by omega
    rw [← zpow_sub₀ (by norm_num), hsplit, ten_zpow_add, zpow_sub₀ (by norm_num), zpow_natCast,
      zpow_natCast]
    congr 2
    omega
  push_cast
  rw [mul_div_mul_comm, hpow, mul_div_mul_comm, mul_assoc]

theorem divNonzero_answers (s : Bool) (hn : 0 < n) (hm : 0 < m) (e f : Int) :
    Answers (signed s (n * 10 ^ e / (m * 10 ^ f))) (divNonzero s n e m f) := by
  obtain ⟨u, hu⟩ : ∃ u, (digitCount m : Int) - digitCount n + precision + 1 = u := ⟨_, rfl⟩
  have hq := pow_le_quotient hn hm hu
  rw [divNonzero_eq s n m e f hu, quotient_eq n hm e f u]
  obtain ⟨x, hx⟩ : ∃ x, x = n * 10 ^ u.toNat := ⟨_, rfl⟩
  obtain ⟨y, hy⟩ : ∃ y, y = m * 10 ^ (-u).toNat := ⟨_, rfl⟩
  have hy0 : 0 < y := hy ▸ Nat.mul_pos hm (Nat.pow_pos (by decide))
  have hy0' : (0 : ℚ) < y := by exact_mod_cast hy0
  rw [← hx, ← hy] at hq ⊢
  have hdiv : ((x / y : Nat) : ℚ) * y + (x % y : Nat) = x := by exact_mod_cast Nat.div_add_mod' x y
  by_cases hz : x % y = 0
  · rw [if_pos hz]
    -- The quotient is exact, and dropping its zeros does not change it.
    have hround := round_answers s (stripZeros (x / y) (e - f - u) u.toNat).1
      (stripZeros (x / y) (e - f - u) u.toNat).2
    rw [sameValue_iff_eq.mp (stripZeros_sameValue _ _ _)] at hround
    have hexact : (x : ℚ) / y = (x / y : Nat) := by
      rw [div_eq_iff hy0'.ne', ← hdiv, hz, Nat.cast_zero, add_zero]
    rwa [hexact]
  · rw [if_neg hz]
    have hrest : (0 : ℚ) < (x % y : Nat) ∧ ((x % y : Nat) : ℚ) < y :=
      ⟨by exact_mod_cast Nat.pos_of_ne_zero hz, by exact_mod_cast Nat.mod_lt x hy0⟩
    have hv : ((x / y : Nat) : ℚ) < x / y ∧ (x : ℚ) / y < (x / y : Nat) + 1 := by
      rw [lt_div_iff₀ hy0', div_lt_iff₀ hy0', ← hdiv]
      constructor <;> nlinarith
    have hw : ((x / y : Nat) : ℚ) < ((x / y : Nat) : ℚ) + 1 / 10 ∧
        ((x / y : Nat) : ℚ) + 1 / 10 < (x / y : Nat) + 1 := by
      constructor <;> linarith
    have hround := round_answers s (10 * (x / y) + 1) (e - f - u - 1)
    have hsticky : ((10 * (x / y) + 1 : Nat) : ℚ) * 10 ^ (e - f - u - 1)
        = (((x / y : Nat) : ℚ) + 1 / 10) * 10 ^ (e - f - u) := by
      rw [zpow_sub_one₀ (by norm_num)]
      push_cast
      ring
    rw [hsticky] at hround
    refine hround.congr ?_
    rw [nearest_signed, nearest_signed, nearest_eq_of_between hq hv hw]

/-- **A quotient is the exact quotient, rounded.** -/
theorem div_answers {a b : Decimal} (ha : a.IsFinite) (hb : b.IsFinite) (hne : b.toRat ≠ 0) :
    Answers (a.toRat / b.toRat) (a.div b) := by
  obtain ⟨s, n, e, rfl⟩ := ha.exists_eq
  obtain ⟨t, m, f, rfl⟩ := hb.exists_eq
  have hm : m ≠ 0 := by
    rintro rfl
    exact hne (by rw [toRat_finite, Nat.cast_zero, zero_mul, signed_zero])
  have hexact : toRat (.finite s n e) / toRat (.finite t m f)
      = signed (s ^^ t) (n * 10 ^ e / (m * 10 ^ f)) := by
    rw [toRat_finite, toRat_finite]
    cases s <;> cases t <;> simp [signed, neg_div, div_neg]
  rw [hexact]
  show Answers _ (if m = 0 then .error (if n = 0 then .divisionUndefined else .divisionByZero)
    else if n = 0 then round (s ^^ t) 0 (e - f) else divNonzero (s ^^ t) n e m f)
  rw [if_neg hm]
  split
  · next hn =>
    have hround := round_answers (s ^^ t) 0 (e - f)
    rw [Nat.cast_zero, zero_mul] at hround
    rwa [hn, Nat.cast_zero, zero_mul, zero_div]
  · next hn => exact divNonzero_answers _ (Nat.pos_of_ne_zero hn) (Nat.pos_of_ne_zero hm) e f

theorem divNonzero_negative {s : Bool} {d : Decimal} (h : divNonzero s n e m f = .ok d) :
    d.negative = s := by
  rw [divNonzero_eq s n m e f rfl] at h
  split at h
  · exact round_negative h
  · exact round_negative h

theorem div_negative {a b d : Decimal} (ha : a.IsFinite) (hb : b.IsFinite) (h : a.div b = .ok d) :
    d.negative = (a.negative ^^ b.negative) := by
  rw [div, nanOf?_of_finite ha hb, Option.getD_none] at h
  obtain ⟨s, n, e, rfl⟩ := ha.exists_eq
  obtain ⟨t, m, f, rfl⟩ := hb.exists_eq
  unfold divNumbers at h
  dsimp only at h
  split at h
  · exact absurd h (by simp)
  · split at h
    · exact round_negative h
    · exact divNonzero_negative h

end quotient

end PerfLedger.Decimal
