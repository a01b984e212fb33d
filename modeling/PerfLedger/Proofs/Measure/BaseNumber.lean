import PerfLedger.Proofs.Measure.Conversion
import PerfLedger.Proofs.Measure.Restored

/-!
# Amounts as numbers of base units

An amount that is converted to the base unit of its kind gives the number it is summed by
(`HasNumber`). That number need not be rounded, since an amount in the base unit is converted to
itself, but its nearest number is the rounded base value by which the amount is compared
(`HasNumber.roundedBase_eq`).

A sum that is kept in the base unit, and its quotient by a count, are rounded numbers of base units
(`AnswersIn`). A sum may overflow, but a quotient does not, and nothing else can go wrong.
-/

namespace PerfLedger

namespace Decimal

variable {a d : Decimal} {n : Nat} {r : Except Signal Decimal}

/-- An operation that answers an infinity for an infinity, and a not-a-number for a not-a-number,
answers a finite number for a finite one only. -/
theorem isFinite_of_getD (hinfinite : ∀ s, a = .infinite s → ∃ t, r = .ok (.infinite t))
    (h : (nanOf? a (ofNat n)).getD r = .ok d) (hd : d.IsFinite) : a.IsFinite := by
  cases a with
  | finite s m e => trivial
  | infinite s =>
    obtain ⟨t, rfl⟩ := hinfinite s rfl
    obtain rfl : .infinite t = d := Except.ok.inj h
    exact hd.elim
  | nan s q p =>
    cases q with
    | true => exact absurd h (by simp [nanOf?])
    | false =>
      obtain rfl : quieted s p = d := Except.ok.inj h
      exact hd.elim

theorem isFinite_of_mul (hn : n ≠ 0) (h : a.mul (ofNat n) = .ok d) (hd : d.IsFinite) :
    a.IsFinite := by
  refine isFinite_of_getD ?_ h hd
  rintro s rfl
  exact ⟨s, by simp [mulNumbers, isZero, ofNat, hn, negative]⟩

theorem isFinite_of_div (h : a.div (ofNat n) = .ok d) (hd : d.IsFinite) : a.IsFinite := by
  refine isFinite_of_getD ?_ h hd
  rintro s rfl
  exact ⟨s, by simp [divNumbers, ofNat, negative]⟩

end Decimal

namespace Amount

open Decimal hiding div_one mul_one

variable {k : MeasureKind} {a b c s t : Amount} {d : Decimal} {x : ℚ}

/-- A finite number of base units of an amount. -/
structure HasNumber (k : MeasureKind) (a : Amount) (d : Decimal) : Prop where
  converted : a.inBaseUnits k = .ok d
  finite : d.IsFinite

/-- Only a finite amount is converted to a finite one. -/
theorem isFinite_of_toUnit {u : MeasureUnit} (h : a.toUnit u = .ok c) (hc : c.value.IsFinite) :
    a.value.IsFinite := by
  unfold toUnit at h
  split at h
  · rwa [Except.ok.inj h]
  · obtain ⟨x, hx, h⟩ := bind_eq_ok.mp h
    obtain ⟨q, hq, h⟩ := bind_eq_ok.mp h
    obtain rfl := pure_eq_ok.mp h
    exact isFinite_of_mul a.unit.factor_pos.ne' hx (isFinite_of_div hq hc)

theorem HasNumber.kind_eq (h : HasNumber k a d) : a.kind = k :=
  (inBaseUnits_eq_ok.mp h.converted).1

theorem HasNumber.isFinite (h : HasNumber k a d) : a.value.IsFinite := by
  obtain ⟨-, c, hc, rfl⟩ := inBaseUnits_eq_ok.mp h.converted
  exact isFinite_of_toUnit hc h.finite

/-- **An amount is compared by the nearest number** of its base units. -/
theorem HasNumber.roundedBase_eq (h : HasNumber k a d) : a.roundedBase = nearest d.toRat := by
  obtain ⟨-, c, hc, rfl⟩ := inBaseUnits_eq_ok.mp h.converted
  rcases toUnit_cases h.isFinite (MeasureUnit.base k) with hover | ⟨r, hr, -, hvalue⟩
  · exact absurd (hc.symm.trans hover) (by simp)
  · obtain rfl := Except.ok.inj (hc.symm.trans hr)
    rw [hvalue, roundedIn, MeasureUnit.factor_base, Nat.cast_one, div_one]
    split
    · next hunit =>
      rw [roundedBase, exactBase, ← hunit, MeasureUnit.factor_base, Nat.cast_one, mul_one]
    · rw [roundedBase, nearest_nearest, nearest_nearest]

/-! ## Sums and quotients in the base unit -/

/-- An amount of `x` base units, written in the base unit. -/
structure IsNumber (k : MeasureKind) (x : ℚ) (t : Amount) : Prop where
  unit : t.unit = MeasureUnit.base k
  finite : t.value.IsFinite
  value : t.value.toRat = x
  fits : |x| ≤ largest

/-- An operation of which the result is `x` base units answers that amount if all its results fit,
and overflows otherwise. -/
inductive AnswersIn (k : MeasureKind) (x : ℚ) (fits : Prop) : Except AmountFault Amount → Prop where
  | ok {t : Amount} (h : fits) (number : IsNumber k x t) : AnswersIn k x fits (.ok t)
  | overflow (h : ¬fits) : AnswersIn k x fits (.error (.signal .overflow))

section answers

variable {p q : Prop} {r : Except AmountFault Amount}

theorem AnswersIn.exists_ok (h : AnswersIn k x p r) (hp : p) : ∃ t, r = .ok t ∧ IsNumber k x t := by
  cases h with
  | ok _ number => exact ⟨_, rfl, number⟩
  | overflow hnot => exact absurd hp hnot

theorem AnswersIn.eq_overflow_iff (h : AnswersIn k x p r) :
    r = .error (.signal .overflow) ↔ ¬p := by
  cases h with
  | ok hp number => simp [hp]
  | overflow hnot => simp [hnot]

theorem AnswersIn.congr (h : AnswersIn k x p r) (hpq : p ↔ q) : AnswersIn k x q r := by
  cases h with
  | ok hp number => exact .ok (hpq.mp hp) number
  | overflow hnot => exact .overflow (mt hpq.mpr hnot)

/-- Two steps overflow if one of them does. -/
theorem AnswersIn.bind {f : Amount → Except AmountFault Amount} {y : ℚ} (h : AnswersIn k x p r)
    (hf : ∀ t, IsNumber k x t → AnswersIn k y q (f t)) : AnswersIn k y (p ∧ q) (r >>= f) := by
  cases h with
  | ok hp number => exact (hf _ number).congr (and_iff_right hp).symm
  | overflow hnot => exact .overflow fun h => hnot h.1

end answers

theorem isNumber_zero (k : MeasureKind) : IsNumber k 0 (zero k) :=
  ⟨rfl, trivial, by rw [zero]; exact toRat_ofNat 0, by rw [abs_zero]; exact largest_nonneg⟩

/-- A decimal operation on amounts in the base unit. -/
theorem answersIn_of_answers {r : Except Signal Decimal} {u : MeasureUnit}
    (hu : u = MeasureUnit.base k) (h : Answers x r) :
    AnswersIn k (nearest x) (|nearest x| ≤ largest) (signaling r >>= fun v => pure ⟨v, u⟩) := by
  cases h with
  | ok finite value fits => exact .ok fits ⟨hu, finite, value, fits⟩
  | overflow beyond => exact .overflow beyond.not_ge

theorem signaling_bind_pure {r : Except Signal Decimal} {f : Decimal → Amount} :
    signaling (r >>= fun v => pure (f v)) = signaling r >>= fun v => pure (f v) := by
  cases r <;> rfl

theorem IsNumber.add (hs : IsNumber k x s) (ha : HasNumber k a d) :
    AnswersIn k (nearest (x + d.toRat)) (|nearest (x + d.toRat)| ≤ largest) (s.add a) := by
  obtain ⟨hkind, c, hc, rfl⟩ := inBaseUnits_eq_ok.mp ha.converted
  rw [Amount.add, combine, if_pos ((kind_of_base hs.unit).trans hkind.symm), hs.unit, hc]
  rw [← hs.value]
  exact signaling_bind_pure ▸ answersIn_of_answers rfl (add_answers hs.finite ha.finite)

/-- A quotient by a count does not overflow. -/
theorem IsNumber.divBy (ht : IsNumber k x t) {n : Nat} (hn : n ≠ 0) :
    AnswersIn k (nearest (x / n)) True (t.divBy (ofNat n)) := by
  have hcount : (1 : ℚ) ≤ n := by exact_mod_cast Nat.one_le_iff_ne_zero.mpr hn
  have hpos : (ofNat n).toRat ≠ 0 := by
    rw [toRat_ofNat]
    exact_mod_cast hn
  have hanswers := div_answers ht.finite (b := ofNat n) trivial hpos
  rw [toRat_ofNat, ht.value] at hanswers
  refine (answersIn_of_answers ht.unit hanswers).congr (iff_true_intro (abs_nearest_le_largest ?_))
  calc |x / n| = |x| / n := by rw [abs_div, Nat.abs_cast]
    _ ≤ |x| := div_le_self (abs_nonneg x) hcount
    _ ≤ largest := ht.fits

/-- A rounded number of base units is its own base value. -/
theorem IsNumber.isComparable (h : IsNumber k (nearest x) t) :
    t.IsComparable ∧ t.roundedBase = nearest x := by
  have hexact : t.exactBase = nearest x := by
    rw [exactBase, h.value, h.unit, MeasureUnit.factor_base, Nat.cast_one, mul_one]
  have hrounded : t.roundedBase = nearest x := by rw [roundedBase, hexact, nearest_nearest]
  refine ⟨⟨h.finite, fun hover => ?_⟩, hrounded⟩
  rw [baseValue_eq_overflow_iff h.finite, hrounded] at hover
  exact hover.not_ge h.fits

end Amount

end PerfLedger
