import PerfLedger.Proofs.Decimal.Rounding
import PerfLedger.Proofs.Decimal.Same
import PerfLedger.Proofs.Fallible

/-!
# Rounding and trailing zeros

Rounding depends on the value that is rounded and not on how many zeros it is written with
(`round_congr`), and a number that fits the working precision is not changed by it
(`round_of_fits`).

The last place that is kept lies either above the zeros, which are then dropped in the division, or
among them; in that case nothing is rounded off, and the results differ only in zeros at the end.
-/

namespace PerfLedger.Decimal

/-- Two operations signal alike or answer the same number. -/
abbrev Alike : Except Signal Decimal → Except Signal Decimal → Prop :=
  Agree Same

theorem Alike.refl (x : Except Signal Decimal) : Alike x x := by
  cases x with
  | ok d => exact .ok (.refl d)
  | error e => exact .error e

theorem Alike.symm {x y : Except Signal Decimal} (h : Alike x y) : Alike y x := by
  cases h with
  | ok same => exact .ok same.symm
  | error e => exact .error e

theorem Alike.trans {x y z : Except Signal Decimal} (h : Alike x y) (h' : Alike y z) : Alike x z :=
  Agree.comp h h' fun _ _ _ => Same.trans

/-! ## The nearest integer -/

theorem divHalfEven_of_lt {n d : Nat} (h : 2 * n < d) : divHalfEven n d = 0 := by
  have hdiv : n / d = 0 := Nat.div_eq_of_lt (by omega)
  have hmod : n % d = n := Nat.mod_eq_of_lt (by omega)
  unfold divHalfEven
  dsimp only
  rw [hdiv, hmod, if_neg (by omega)]

theorem divHalfEven_mul_self (n : Nat) {d : Nat} (h : 0 < d) : divHalfEven (n * d) d = n := by
  unfold divHalfEven
  dsimp only
  rw [Nat.mul_div_cancel n h, Nat.mul_mod_left, if_neg (by omega)]

theorem divHalfEven_scale (n d : Nat) {c : Nat} (h : 0 < c) :
    divHalfEven (n * c) (d * c) = divHalfEven n d := by
  have hiff : d * c < 2 * (n % d * c) ↔ d < 2 * (n % d) := by
    rw [← Nat.mul_assoc]
    exact Nat.mul_lt_mul_right h
  have heq : 2 * (n % d * c) = d * c ↔ 2 * (n % d) = d := by
    rw [← Nat.mul_assoc]
    exact Nat.mul_left_inj (by omega)
  unfold divHalfEven
  simp only [Nat.mul_div_mul_right n d h, Nat.mul_mod_mul_right, hiff, heq]

/-- The shortcut for large shifts gives what the division gives. -/
theorem coefficientAt_eq (n : Nat) (e q : Int) :
    coefficientAt n e q = divHalfEven n (10 ^ (q - e).toNat) := by
  unfold coefficientAt
  dsimp only
  split
  · next h =>
    -- A shift past all digits leaves less than a half.
    have hlt : 2 * n < 10 ^ (q - e).toNat := by
      have hn := lt_pow_digitCount n
      have hle : 10 ^ (digitCount n + 1) ≤ 10 ^ (q - e).toNat :=
        Nat.pow_le_pow_right (by decide) h
      rw [Nat.pow_succ] at hle
      omega
    exact (divHalfEven_of_lt hlt).symm
  · rfl

/-! ## Trailing zeros -/

theorem quantum_mul_pow {n : Nat} (hn : 0 < n) (k : Nat) (e : Int) :
    quantum (n * 10 ^ k) e = max e (max (e + k + digitCount n - precision) minQuantum) := by
  unfold quantum
  rw [digitCount_mul_pow hn]
  omega

/-- Rounding is decided by the last place and the digits above it. -/
theorem rounded_congr {n m : Nat} {e f q : Int} (hn : quantum n e = q) (hm : quantum m f = q)
    (h : coefficientAt n e q = coefficientAt m f q) : rounded n e = rounded m f := by
  unfold rounded
  dsimp only
  rw [hn, hm, h]

/-- A number that has no digits below the last place that is kept. -/
theorem rounded_of_exact {n m : Nat} {e q : Int} (hm : m < 10 ^ precision) (hq : quantum n e = q)
    (hn : n = m * 10 ^ (q - e).toNat) : rounded n e = (m, q) := by
  have hcoefficient : coefficientAt n e q = m := by
    rw [coefficientAt_eq]
    conv_lhs => rw [hn]
    exact divHalfEven_mul_self m (Nat.pow_pos (by decide))
  unfold rounded
  dsimp only
  rw [hq, hcoefficient]
  exact if_neg (Nat.ne_of_lt hm)

theorem round_of_rounded {n m : Nat} {e q : Int} (hn : n ≠ 0) (h : rounded n e = (m, q))
    (s : Bool) : round s n e =
      if q + digitCount m - 1 > maxExponent then .error .overflow else .ok (.finite s m q) := by
  unfold round
  rw [if_neg hn, h]

theorem round_zero (s : Bool) (e : Int) : round s 0 e = .ok (.finite s 0 (zeroExponent e)) :=
  if_pos rfl

/-- The same digits with and without zeros at the end are rounded alike. -/
theorem round_mul_pow (s : Bool) {n : Nat} (hn : 0 < n) (k : Nat) (e : Int) :
    Alike (round s (n * 10 ^ k) e) (round s n (e + k)) := by
  have hpos : n * 10 ^ k ≠ 0 := Nat.ne_of_gt (Nat.mul_pos hn (Nat.pow_pos (by decide)))
  have hq := quantum_mul_pow hn k e
  have hq' : quantum n (e + k) = max (e + k) (max (e + k + digitCount n - precision) minQuantum) :=
    rfl
  obtain ⟨q, hqdef⟩ : ∃ q, q = max (e + k + digitCount n - precision) minQuantum := ⟨_, rfl⟩
  rw [← hqdef] at hq hq'
  by_cases hle : e + k ≤ q
  · -- The zeros are all below the last place.
    have hsame : rounded (n * 10 ^ k) e = rounded n (e + k) := by
      have hshift : (q - e).toNat = (q - (e + k)).toNat + k := by omega
      refine rounded_congr (q := q) (hq.trans (by omega)) (hq'.trans (by omega)) ?_
      rw [coefficientAt_eq, coefficientAt_eq, hshift, Nat.pow_add,
        divHalfEven_scale _ _ (Nat.pow_pos (by decide))]
    rw [round_of_rounded hpos hsame, round_of_rounded (by omega) rfl]
    exact .refl _
  · -- All digits are kept.
    obtain ⟨j, hj⟩ : ∃ j, j = (e + k - max e q).toNat := ⟨_, rfl⟩
    have hdigits : digitCount n + j ≤ precision := by omega
    have hpow : n * 10 ^ j < 10 ^ precision := by
      have hlt := lt_pow_digitCount (n * 10 ^ j)
      rw [digitCount_mul_pow hn] at hlt
      exact Nat.lt_of_lt_of_le hlt (Nat.pow_le_pow_right (by decide) hdigits)
    have hexact : rounded (n * 10 ^ k) e = (n * 10 ^ j, max e q) := by
      refine rounded_of_exact hpow hq ?_
      have hk : k = j + (max e q - e).toNat := by omega
      rw [Nat.mul_assoc, ← Nat.pow_add, ← hk]
    have hexact' : rounded n (e + k) = (n, e + k) := by
      refine rounded_of_exact ?_ (by omega) ?_
      · exact Nat.lt_of_le_of_lt (Nat.le_mul_of_pos_right n (Nat.pow_pos (by decide))) hpow
      · rw [Int.sub_self, Int.toNat_zero, Nat.pow_zero, Nat.mul_one]
    rw [round_of_rounded hpos hexact, round_of_rounded (by omega) hexact', digitCount_mul_pow hn]
    have hexp : max e q + j = e + k := by omega
    have hcond : max e q + ((digitCount n + j : Nat) : Int) - 1 = e + k + digitCount n - 1 := by
      omega
    rw [hcond]
    split
    · exact .error _
    · refine .ok ⟨rfl, ?_⟩
      rw [← hexp]
      exact sameValue_zeros n j _

/-- **Rounding depends on the value alone.** -/
theorem round_congr (s : Bool) {n m : Nat} {e f : Int} (h : SameValue n e m f) :
    Alike (round s n e) (round s m f) := by
  have scaled {n m : Nat} {e f : Int} (h : SameValue n e m f) (hle : f ≤ e) :
      Alike (round s m f) (round s n e) := by
    obtain ⟨hm, he⟩ := h.eq_mul hle
    by_cases hn : n = 0
    · rw [hn, h.eq_zero_iff.mp hn, round_zero, round_zero]
      exact .ok ⟨rfl, sameValue_zero _ _⟩
    · rw [hm]
      conv in round s n e => rw [he]
      exact round_mul_pow s (Nat.pos_of_ne_zero hn) _ f
  -- Either of the two may be written with more zeros.
  rcases Int.le_total f e with hle | hle
  · exact (scaled h hle).symm
  · exact scaled h.symm hle

/-- **A number that fits is not changed.** -/
theorem round_of_fits {s : Bool} {n : Nat} {e : Int} (h : FitsPrecision (.finite s n e)) :
    Alike (round s n e) (.ok (.finite s n e)) := by
  obtain ⟨hlt, hlow, hhigh⟩ := h
  by_cases hn : n = 0
  · rw [hn, round_zero]
    exact .ok ⟨rfl, sameValue_zero _ _⟩
  · have hdigits : digitCount n ≤ precision := (digitCount_le_iff (Nat.pos_of_ne_zero hn)).mpr hlt
    have hq : quantum n e = e := by
      unfold quantum
      omega
    have hexact : rounded n e = (n, e) := by
      refine rounded_of_exact hlt hq ?_
      rw [Int.sub_self, Int.toNat_zero, Nat.pow_zero, Nat.mul_one]
    rw [round_of_rounded hn hexact, if_neg (by omega)]
    exact .refl _

end PerfLedger.Decimal
