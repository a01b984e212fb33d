import Mathlib.Algebra.Order.BigOperators.Group.List
import PerfLedger.Proofs.Decimal.Running
import PerfLedger.Proofs.Measure.BaseNumber
import PerfLedger.Proofs.Measure.Hash
import PerfLedger.Proofs.Results.Extremes

/-!
# Averages

The average of the measures of operations is computed in the base unit: their numbers of base units
are added in turn, from zero on, and the sum is divided by the number of operations. Each step
rounds. A sum may overflow, and nothing else can go wrong (`average_answers`).

If all the digits of the sum can be kept, only the division rounds, and the average is the nearest
number to the mean. It then depends on no order and lies between the least and the greatest measure
(`average_exact`). In any case the error is bounded by the magnitudes of the numbers
(`average_error`).
-/

namespace PerfLedger

open Amount Decimal

variable {k : MeasureKind} {as : List Amount} {ds : List Decimal} {os os' : List Operation}

namespace Statistic

/-! ## What the average answers -/

theorem total_answers {s : Amount} {x : ℚ} (hs : IsNumber k x s)
    (h : List.Forall₂ (HasNumber k) as ds) :
    AnswersIn k (runningSum x (ds.map toRat)) (SumsFit x (ds.map toRat)) (total s as) := by
  induction h generalizing s x with
  | nil => exact .ok trivial hs
  | cons had _ ih => exact (hs.add had).bind fun _ ht => ih ht

/-- **An average is computed in the base unit**, unless a sum overflows. -/
theorem averageOf_answers (hne : as ≠ []) (h : List.Forall₂ (HasNumber k) as ds) :
    AnswersIn k (nearest (runningSum 0 (ds.map toRat) / ds.length)) (SumsFit 0 (ds.map toRat))
      (averageOf k as) := by
  have hlength : as.length ≠ 0 := fun hzero => hne (List.length_eq_zero_iff.mp hzero)
  rw [averageOf, if_neg hne, ← h.length_eq]
  have hanswers := (total_answers (isNumber_zero k) h).bind fun _ ht => ht.divBy hlength
  exact hanswers.congr (and_iff_left trivial)

/-- The numbers of base units of one measure of operations. -/
def HaveNumbers (k : MeasureKind) (os : List Operation) (ds : List Decimal) : Prop :=
  List.Forall₂ (fun o d => HasNumber k (o.measure k) d) os ds

theorem HaveNumbers.measures (h : HaveNumbers k os ds) :
    List.Forall₂ (HasNumber k) (os.map fun o => o.measure k) ds :=
  List.forall₂_map_left_iff.mpr h

theorem HaveNumbers.ne_nil (h : HaveNumbers k os ds) (hne : os ≠ []) : ds ≠ [] := by
  rintro rfl
  exact hne (List.forall₂_nil_right_iff.mp h)

theorem HaveNumbers.exists_perm (h : HaveNumbers k os ds) (hperm : os'.Perm os) :
    ∃ ds', HaveNumbers k os' ds' ∧ ds'.Perm ds :=
  List.perm_comp_forall₂ hperm h

theorem average_answers (hne : os ≠ []) (h : HaveNumbers k os ds) :
    AnswersIn k (nearest (runningSum 0 (ds.map toRat) / ds.length)) (SumsFit 0 (ds.map toRat))
      (average.ofOperations k os) :=
  averageOf_answers (by simpa using hne) h.measures

/-- The mean of numbers, without rounding. -/
def exactMean (ds : List Decimal) : ℚ :=
  (ds.map toRat).sum / ds.length

theorem exactMean_perm {ds' : List Decimal} (hperm : ds'.Perm ds) :
    exactMean ds' = exactMean ds := by
  rw [exactMean, exactMean, (hperm.map toRat).sum_eq, hperm.length_eq]

theorem le_exactMean {c : ℚ} (hne : ds ≠ []) (h : ∀ d ∈ ds, c ≤ d.toRat) : c ≤ exactMean ds := by
  have hpos : (0 : ℚ) < ds.length := by exact_mod_cast List.length_pos_iff.mpr hne
  have hsum := List.card_nsmul_le_sum (ds.map toRat) c (List.forall_mem_map.mpr h)
  rw [List.length_map, nsmul_eq_mul] at hsum
  rw [exactMean, le_div_iff₀ hpos]
  linarith

theorem exactMean_le {c : ℚ} (hne : ds ≠ []) (h : ∀ d ∈ ds, d.toRat ≤ c) : exactMean ds ≤ c := by
  have hpos : (0 : ℚ) < ds.length := by exact_mod_cast List.length_pos_iff.mpr hne
  have hsum := List.sum_le_card_nsmul (ds.map toRat) c (List.forall_mem_map.mpr h)
  rw [List.length_map, nsmul_eq_mul] at hsum
  rw [exactMean, div_le_iff₀ hpos]
  linarith

/-! ## Sums of which all digits can be kept -/

/-- Numbers on one grid, the magnitudes of which together have no more than 28 digits on it. -/
structure FitTogether (e : ℤ) (ds : List Decimal) : Prop where
  place : minQuantum ≤ e
  grid : ∀ d ∈ ds, OnGrid e d.toRat
  digits : magnitude (ds.map toRat) < 10 ^ (precision + e)

section exact

variable {e : ℤ} {ds' : List Decimal}

theorem FitTogether.perm (h : FitTogether e ds) (hperm : ds'.Perm ds) : FitTogether e ds' := by
  refine ⟨h.place, fun d hd => h.grid d (hperm.mem_iff.mp hd), ?_⟩
  have hsum : magnitude (ds'.map toRat) = magnitude (ds.map toRat) :=
    ((hperm.map toRat).map _).sum_eq
  exact hsum ▸ h.digits

/-- Each of the numbers can be kept, too. -/
theorem FitTogether.nearest_eq (h : FitTogether e ds) {d : Decimal} (hd : d ∈ ds) :
    nearest d.toRat = d.toRat := by
  refine nearest_of_isKept ((h.grid d hd).isKept h.place (lt_of_le_of_lt ?_ h.digits))
  exact abs_le_magnitude (List.mem_map_of_mem hd)

/-- None of the exact partial sums of numbers is beyond the largest number. -/
def PartialSumsFit (ds : List Decimal) : Prop :=
  ∀ front, front <+: ds.map toRat → |front.sum| ≤ largest

theorem average_answers_exact (hne : os ≠ []) (h : HaveNumbers k os ds) (hfit : FitTogether e ds) :
    AnswersIn k (nearest (exactMean ds)) (PartialSumsFit ds) (average.ofOperations k os) := by
  have hgrid : ∀ x ∈ ds.map toRat, OnGrid e x := List.forall_mem_map.mpr hfit.grid
  have hdigits : |(0 : ℚ)| + magnitude (ds.map toRat) < 10 ^ (precision + e) := by
    simpa using hfit.digits
  have hlargest : |(0 : ℚ)| ≤ largest := by
    rw [abs_zero]
    exact largest_nonneg
  have hsums := sumsFit_iff hfit.place OnGrid.zero hlargest hgrid hdigits
  simp only [zero_add] at hsums
  have hanswers := (average_answers hne h).congr hsums
  rwa [runningSum_eq_sum hfit.place OnGrid.zero hgrid hdigits, zero_add] at hanswers

/-- The average is no less than what no measure is less than, and no greater than what no measure is
greater than. -/
theorem nearest_exactMean_between (hne : os ≠ []) (h : HaveNumbers k os ds)
    (hfit : FitTogether e ds) (c : Amount) :
    ((∀ o ∈ os, c.roundedBase ≤ (o.measure k).roundedBase) →
      c.roundedBase ≤ nearest (exactMean ds)) ∧
    ((∀ o ∈ os, (o.measure k).roundedBase ≤ c.roundedBase) →
      nearest (exactMean ds) ≤ c.roundedBase) := by
  have hne' := h.ne_nil hne
  have hc : nearest c.roundedBase = c.roundedBase := nearest_nearest _
  -- The numbers are compared as they are, since they can be kept.
  have hnumber (d : Decimal) (hd : d ∈ ds) : ∃ o ∈ os, (o.measure k).roundedBase = d.toRat := by
    obtain ⟨o, ho, hod⟩ := exists_of_forall₂_right h hd
    exact ⟨o, ho, hod.roundedBase_eq.trans (hfit.nearest_eq hd)⟩
  constructor
  · intro hle
    rw [← hc]
    refine nearest_mono (le_exactMean hne' fun d hd => ?_)
    obtain ⟨o, ho, hvalue⟩ := hnumber d hd
    exact hvalue ▸ hle o ho
  · intro hle
    rw [← hc]
    refine nearest_mono (exactMean_le hne' fun d hd => ?_)
    obtain ⟨o, ho, hvalue⟩ := hnumber d hd
    exact hvalue ▸ hle o ho

/-- A measure of which the number is not beyond the largest one can be compared. -/
theorem FitTogether.isComparable (hfit : FitTogether e ds) (h : HaveNumbers k os ds)
    (hlargest : ∀ d ∈ ds, |d.toRat| ≤ largest) {o : Operation} (ho : o ∈ os) :
    (o.measure k).kind = k ∧ (o.measure k).IsComparable := by
  obtain ⟨d, hd, hod⟩ := exists_of_forall₂_left h ho
  refine ⟨hod.kind_eq, hod.isFinite, fun hover => ?_⟩
  rw [baseValue_eq_overflow_iff hod.isFinite, hod.roundedBase_eq, hfit.nearest_eq hd] at hover
  exact hover.not_ge (hlargest d hd)

/-- The rounded mean lies between the least and the greatest measure. -/
theorem FitTogether.between (hfit : FitTogether e ds) (hne : os ≠ []) (h : HaveNumbers k os ds)
    (hlargest : ∀ d ∈ ds, |d.toRat| ≤ largest) {mean : Amount}
    (hmean : IsNumber k (nearest (exactMean ds)) mean) :
    ∃ low high, least.ofOperations k os = .ok low ∧ greatest.ofOperations k os = .ok high ∧
      low.relate .lessEqual mean = .ok true ∧ mean.relate .lessEqual high = .ok true := by
  obtain ⟨hcomparable, hrounded⟩ := hmean.isComparable
  have hkind := kind_of_base hmean.unit
  have hos : AreComparable k (os.map fun o => o.measure k) :=
    List.forall_mem_map.mpr fun o ho => hfit.isComparable h hlargest ho
  have hmeasures : os.map (fun o => o.measure k) ≠ [] := by simpa using hne
  obtain ⟨low, hmemLow, high, hmemHigh, hlow, hhigh, hbetween⟩ :=
    exists_extremes hmeasures fun a ha => ⟨(hos a ha).1, (hos a ha).2.isOrderable⟩
  obtain ⟨hkindLow, hcompLow⟩ := hos low hmemLow
  obtain ⟨hkindHigh, hcompHigh⟩ := hos high hmemHigh
  have hle : low.roundedBase ≤ nearest (exactMean ds) := by
    refine (nearest_exactMean_between hne h hfit low).1 fun o ho => ?_
    have ho' := List.mem_map_of_mem (f := fun o => o.measure k) ho
    exact (hcompLow.place_le_iff (hos _ ho').2).mp (hbetween _ ho').1
  have hge : nearest (exactMean ds) ≤ high.roundedBase := by
    refine (nearest_exactMean_between hne h hfit high).2 fun o ho => ?_
    have ho' := List.mem_map_of_mem (f := fun o => o.measure k) ho
    exact ((hos _ ho').2.place_le_iff hcompHigh).mp (hbetween _ ho').2
  rw [← hrounded] at hle hge
  refine ⟨low, high, hlow, hhigh, ?_, ?_⟩
  · exact (lessEqual_iff hcompLow hcomparable (hkindLow.trans hkind.symm)).mpr hle
  · exact (lessEqual_iff hcomparable hcompHigh (hkind.trans hkindHigh.symm)).mpr hge

/--
**An average is the correctly rounded mean**, if all digits of the sum can be kept.

The operations may be in another order: the number is the same, unless a partial sum is beyond the
largest number in that order. If the numbers themselves are not beyond it either, the average lies
between the least and the greatest measure, as measures are compared.
-/
theorem average_exact (hne : os ≠ []) (h : HaveNumbers k os ds) (hfit : FitTogether e ds) :
    (∀ os' : List Operation, os'.Perm os → ∃ ds', HaveNumbers k os' ds' ∧ ds'.Perm ds ∧
      (average.ofOperations k os' = .error (.signal .overflow) ↔ ¬PartialSumsFit ds') ∧
      (PartialSumsFit ds' → ∃ mean, average.ofOperations k os' = .ok mean ∧
        IsNumber k (nearest (exactMean ds)) mean)) ∧
    ((∀ d ∈ ds, |d.toRat| ≤ largest) → PartialSumsFit ds →
      ∃ low mean high, least.ofOperations k os = .ok low ∧
        average.ofOperations k os = .ok mean ∧ greatest.ofOperations k os = .ok high ∧
        low.relate .lessEqual mean = .ok true ∧ mean.relate .lessEqual high = .ok true) := by
  constructor
  · intro os' hperm
    obtain ⟨ds', h', hperm'⟩ := h.exists_perm hperm
    have hne' : os' ≠ [] := fun hnil => hne (List.nil_perm.mp (hnil ▸ hperm))
    have hanswers := average_answers_exact hne' h' (hfit.perm hperm')
    rw [exactMean_perm hperm'] at hanswers
    exact ⟨ds', h', hperm', hanswers.eq_overflow_iff, hanswers.exists_ok⟩
  · intro hlargest hsums
    obtain ⟨mean, hmean, hnumber⟩ := (average_answers_exact hne h hfit).exists_ok hsums
    obtain ⟨low, high, hlow, hhigh, hle, hge⟩ := hfit.between hne h hlargest hnumber
    exact ⟨low, mean, high, hlow, hmean, hhigh, hle, hge⟩

/-- A second, half a millisecond and two milliseconds. -/
def sampleThirds : List Operation :=
  [{ time := ⟨1, .second⟩ }, { time := ⟨.finite false 5 (-1), .millisecond⟩ },
    { time := ⟨2, .millisecond⟩ }]

/-- The mean has infinitely many digits and is rounded, in whatever order the times are added. -/
theorem average_exact_thirds :
    (∃ mean, average.ofOperations .duration sampleThirds.reverse = .ok mean ∧
      IsNumber .duration (nearest (2005 / 6)) mean) ∧
    ∃ mean, average.ofOperations .duration sampleThirds = .ok mean ∧
      Amount.relate .lessEqual ⟨.finite false 5 (-1), .millisecond⟩ mean = .ok true ∧
      mean.relate .lessEqual ⟨1, .second⟩ = .ok true := by
  have hnumbers : HaveNumbers .duration sampleThirds
      [.finite false 1000 0, .finite false 5 (-1), .finite false 2 0] :=
    .cons ⟨by decide +kernel, trivial⟩ <| .cons ⟨by decide +kernel, trivial⟩ <|
      .cons ⟨by decide +kernel, trivial⟩ .nil
  have hfit : FitTogether (-1) [.finite false 1000 0, .finite false 5 (-1), .finite false 2 0] := by
    refine ⟨by decide, ?_, by norm_num [magnitude, toRat_finite, signed, precision]⟩
    simp only [List.forall_mem_cons]
    exact ⟨⟨10000, by norm_num [toRat_finite, signed]⟩, ⟨5, by norm_num [toRat_finite, signed]⟩,
      ⟨20, by norm_num [toRat_finite, signed]⟩, by simp⟩
  have hmean : exactMean [.finite false 1000 0, .finite false 5 (-1), .finite false 2 0] =
      2005 / 6 := by
    norm_num [exactMean, toRat_finite, signed]
  have hne : sampleThirds ≠ [] := by simp [sampleThirds]
  have hsums : PartialSumsFit [.finite false 1000 0, .finite false 5 (-1), .finite false 2 0] :=
    have hanswers := average_answers_exact hne hnumbers hfit
    not_not.mp (mt hanswers.eq_overflow_iff.mpr (by decide +kernel))
  have hten : (10 ^ precision - 1) * 10 ^ (0 : ℤ) ≤ largest :=
    mul_le_mul_of_nonneg_left (ten_zpow_le (by decide)) (by norm_num [precision])
  have hlargest : ∀ d ∈ [.finite false 1000 0, .finite false 5 (-1), .finite false 2 0],
      |toRat d| ≤ largest := by
    simp only [List.forall_mem_cons]
    refine ⟨le_trans ?_ hten, le_trans ?_ hten, le_trans ?_ hten, by simp⟩
    all_goals norm_num [toRat_finite, signed, precision]
  obtain ⟨hperm, hbetween⟩ := average_exact hne hnumbers hfit
  obtain ⟨ds', -, -, hover, hmean'⟩ := hperm _ (List.reverse_perm _)
  obtain ⟨low, mean, high, hlow, havg, hhigh, hle, hge⟩ := hbetween hlargest hsums
  have hleast : least.ofOperations .duration sampleThirds =
      .ok ⟨.finite false 5 (-1), .millisecond⟩ := by decide +kernel
  have hgreatest : greatest.ofOperations .duration sampleThirds = .ok ⟨1, .second⟩ := by
    decide +kernel
  obtain rfl := Except.ok.inj (hlow.symm.trans hleast)
  obtain rfl := Except.ok.inj (hhigh.symm.trans hgreatest)
  rw [← hmean]
  exact ⟨hmean' (not_not.mp (mt hover.mpr (by decide +kernel))), mean, havg, hle, hge⟩

end exact

/-! ## Any sums -/

/--
**The error of an average is bounded by the magnitudes of the numbers.**

For numbers that are zero or not very small, with any digits and signs, if no sum overflows. There
is one rounding for each addition and one for the division. Partial sums and the mean may be as
small as they like.
-/
theorem average_error (hne : os ≠ []) (h : HaveNumbers k os ds)
    (hnormal : ∀ d ∈ ds, IsZeroOrNormal d.toRat) :
    (average.ofOperations k os = .error (.signal .overflow) ↔ ¬SumsFit 0 (ds.map toRat)) ∧
    (SumsFit 0 (ds.map toRat) →
      ∃ mean, average.ofOperations k os = .ok mean ∧ mean.unit = MeasureUnit.base k ∧
        mean.value.IsFinite ∧
        |mean.value.toRat - exactMean ds| ≤
          ((1 + 5 * 10 ^ (-28 : ℤ)) ^ (ds.length + 1) - 1) *
            (magnitude (ds.map toRat) / ds.length)) := by
  have hanswers := average_answers hne h
  refine ⟨hanswers.eq_overflow_iff, fun hsums => ?_⟩
  obtain ⟨mean, hmean, hnumber⟩ := hanswers.exists_ok hsums
  refine ⟨mean, hmean, hnumber.unit, hnumber.finite, ?_⟩
  have hds : ds.map toRat ≠ [] := by simpa using h.ne_nil hne
  have herror := mean_error hds (List.forall_mem_map.mpr hnormal)
  have hroundoff : unitRoundoff = 5 * 10 ^ (-28 : ℤ) := by norm_num [unitRoundoff]
  rw [List.length_map, roundingError, hroundoff] at herror
  rw [hnumber.value]
  exact herror

/-- A millisecond between two times that cancel. -/
def sampleCancellation : List Operation :=
  [{ time := ⟨.finite false 1 28, .millisecond⟩ }, { time := ⟨1, .millisecond⟩ },
    { time := ⟨.finite true 1 28, .millisecond⟩ }]

/-- The millisecond is lost, and the average is zero. -/
theorem average_error_cancellation :
    |(0 : ℚ) - 1 / 3| ≤ ((1 + 5 * 10 ^ (-28 : ℤ)) ^ 4 - 1) * ((2 * 10 ^ 28 + 1) / 3) ∧
    ∃ mean, average.ofOperations .duration sampleCancellation = .ok mean ∧
      mean.value.toRat = 0 := by
  have hnumbers : HaveNumbers .duration sampleCancellation
      [.finite false 1 28, .finite false 1 0, .finite true 1 28] :=
    .cons ⟨by decide +kernel, trivial⟩ <| .cons ⟨by decide +kernel, trivial⟩ <|
      .cons ⟨by decide +kernel, trivial⟩ .nil
  have normal {x : ℚ} (h : 10 ^ (0 : ℤ) ≤ |x|) : IsZeroOrNormal x :=
    .inr ((ten_zpow_le (by decide)).trans h)
  have hnormal : ∀ d ∈ [.finite false 1 28, .finite false 1 0, .finite true 1 28],
      IsZeroOrNormal (toRat d) := by
    simp only [List.forall_mem_cons]
    exact ⟨normal (by norm_num [toRat_finite, signed]), normal (by norm_num [toRat_finite, signed]),
      normal (by norm_num [toRat_finite, signed]), by simp⟩
  have hne : sampleCancellation ≠ [] := by simp [sampleCancellation]
  obtain ⟨hover, hbound⟩ := average_error hne hnumbers hnormal
  obtain ⟨mean, hmean, -, -, herror⟩ := hbound (not_not.mp (mt hover.mpr (by decide +kernel)))
  have hzero : average.ofOperations .duration sampleCancellation =
      .ok ⟨.finite false 0 1, .millisecond⟩ := by decide +kernel
  obtain rfl := Except.ok.inj (hmean.symm.trans hzero)
  have hvalue : toRat (.finite false 0 1) = 0 := by norm_num [toRat_finite, signed]
  have hexact : exactMean [.finite false 1 28, .finite false 1 0, .finite true 1 28] = 1 / 3 := by
    norm_num [exactMean, toRat_finite, signed]
  have hmagnitude : magnitude
      (([.finite false 1 28, .finite false 1 0, .finite true 1 28] : List Decimal).map toRat) =
      2 * 10 ^ 28 + 1 := by
    norm_num [magnitude, toRat_finite, signed]
  rw [hvalue, hexact, hmagnitude] at herror
  exact ⟨by exact_mod_cast herror, _, hzero, hvalue⟩

end Statistic

end PerfLedger
