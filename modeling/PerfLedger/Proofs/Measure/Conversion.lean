import Mathlib.Data.Sign.Basic
import PerfLedger.Measure.Order
import PerfLedger.Proofs.Fallible
import PerfLedger.Proofs.Measure.Exact

/-!
# Conversion of amounts

An amount is converted by rounding twice: the product with the factor of its unit, and the quotient
by that of the other unit (`roundedIn`). Only the product can overflow, because no factor is less
than one (`toUnit_eq`).

The two errors add up to slightly more than one part in `10 ^ 27`, the sign is kept, and nothing is
lost if both exact results have at most 28 digits. Since both roundings are monotone, so is the
conversion (`convert_accuracy`).
-/

namespace PerfLedger.Amount

open Decimal

variable {a b : Amount} {u : MeasureUnit}

/-- The number of units `u` that the amount is converted to. In its own unit it stays as it is. -/
def roundedIn (a : Amount) (u : MeasureUnit) : ℚ :=
  if u = a.unit then a.value.toRat else nearest (a.roundedBase / u.factor)

theorem roundedIn_self (a : Amount) : a.roundedIn a.unit = a.value.toRat :=
  if_pos rfl

theorem roundedIn_of_ne (h : u ≠ a.unit) : a.roundedIn u = nearest (a.roundedBase / u.factor) :=
  if_neg h

theorem one_le_factor_cast (u : MeasureUnit) : (1 : ℚ) ≤ u.factor := by
  exact_mod_cast u.factor_pos

/-- A unit is named by its symbol. -/
theorem unitNamed_symbol (u : MeasureUnit) : unitNamed u.kind (.text u.symbol) = .ok u := by
  cases u <;> decide

theorem convert_symbol (hkind : u.kind = a.kind) :
    a.convert (.text u.symbol) = signaling (a.toUnit u) := by
  rw [convert, ← hkind, unitNamed_symbol]
  rfl

/-! ## Overflow -/

theorem baseValue_eq_overflow_iff (ha : a.value.IsFinite) :
    a.baseValue = .error .overflow ↔ largest < |a.roundedBase| :=
  (baseValue_answers ha).eq_overflow_iff

/-- What has a base value has a number of every unit. -/
theorem abs_nearest_div_le (a : Amount) (u : MeasureUnit) :
    |nearest (a.roundedBase / u.factor)| ≤ |a.roundedBase| := by
  have hkept := nearest_of_isKept (nearest_isKept a.exactBase)
  calc |nearest (a.roundedBase / u.factor)| = nearest |a.roundedBase / u.factor| :=
        (nearest_abs _).symm
    _ ≤ nearest |a.roundedBase| := by
        refine nearest_mono ?_
        rw [abs_div, abs_of_pos (factor_cast_pos u)]
        exact div_le_self (abs_nonneg _) (one_le_factor_cast u)
    _ = |a.roundedBase| := by rw [nearest_abs, roundedBase, hkept]

/-- **A conversion fails exactly if the base value overflows.** -/
theorem toUnit_eq (ha : a.value.IsFinite) (hne : u ≠ a.unit) :
    (largest < |a.roundedBase| ∧ a.toUnit u = .error .overflow) ∨
      (|a.roundedBase| ≤ largest ∧ ∃ r, a.toUnit u = .ok ⟨r, u⟩ ∧ r.IsFinite ∧
        r.toRat = a.roundedIn u ∧ r.negative = a.value.negative) := by
  have hfactor : (ofNat u.factor).toRat ≠ 0 := by
    rw [toRat_ofNat]
    exact (factor_cast_pos u).ne'
  rw [toUnit, if_neg hne, roundedIn_of_ne hne]
  rcases lt_or_ge largest |a.roundedBase| with hbeyond | hfits
  · left
    rw [(baseValue_eq_overflow_iff ha).mpr hbeyond]
    exact ⟨hbeyond, rfl⟩
  · right
    obtain ⟨x, hx, hxf, hxv⟩ := (baseValue_answers ha).exists_ok hfits
    have hdiv := div_answers hxf (b := ofNat u.factor) trivial hfactor
    rw [toRat_ofNat, hxv] at hdiv
    obtain ⟨r, hr, hrf, hrv⟩ := hdiv.exists_ok ((abs_nearest_div_le a u).trans hfits)
    have hsign : r.negative = a.value.negative := by
      rw [div_negative hxf (b := ofNat u.factor) trivial hr,
        mul_negative ha (b := ofNat a.unit.factor) trivial hx]
      simp [ofNat, Decimal.negative]
    refine ⟨hfits, r, ?_, hrf, hrv, hsign⟩
    rw [hx]
    show (x.div (ofNat u.factor) >>= _) = _
    rw [hr]
    rfl

/-- A conversion to any unit answers the number of that unit, or overflows. -/
theorem toUnit_cases (ha : a.value.IsFinite) (u : MeasureUnit) :
    a.toUnit u = .error .overflow ∨
      ∃ r, a.toUnit u = .ok ⟨r, u⟩ ∧ r.IsFinite ∧ r.toRat = a.roundedIn u := by
  by_cases hu : u = a.unit
  · subst hu
    exact .inr ⟨a.value, if_pos rfl, ha, (roundedIn_self a).symm⟩
  · rcases toUnit_eq ha hu with ⟨-, h⟩ | ⟨-, r, h, hr, hvalue, -⟩
    · exact .inl h
    · exact .inr ⟨r, h, hr, hvalue⟩

/-! ## Accuracy -/

/-- The errors of a product and of a quotient by a positive number add up. -/
theorem error_of_errors {x y z f : ℚ} (hf : 0 < f) (hy : |y - x| ≤ unitRoundoff * |x|)
    (hz : |z - y / f| ≤ unitRoundoff * |y / f|) : |z * f - x| ≤ roundingError 2 * |x| := by
  have hstart : |x * 1 - x| ≤ roundingError 0 * |x| + 0 := by simp [roundingError]
  have hproduct : |y - x| ≤ roundingError 1 * |x| := by
    simpa using error_step one_pos le_rfl hstart (hy.trans_eq (add_zero _).symm)
  have hquotient : |y / f * f - x| ≤ roundingError 1 * |x| + 0 := by
    rwa [div_mul_cancel₀ _ hf.ne', add_zero]
  have herror := error_step hf le_rfl hquotient (hz.trans_eq (add_zero _).symm)
  linarith

/-- An error that is less than the number does not change its sign. -/
theorem sign_eq_of_error {x z ε : ℚ} (hε : ε < 1) (h : |z - x| ≤ ε * |x|) :
    SignType.sign z = SignType.sign x := by
  obtain ⟨hlow, hhigh⟩ := abs_le.mp h
  rcases lt_trichotomy x 0 with hx | rfl | hx
  · rw [abs_of_neg hx] at hlow hhigh
    rw [sign_neg hx, sign_neg (by nlinarith)]
  · rw [abs_zero, mul_zero] at hlow hhigh
    rw [show z = 0 by linarith]
  · rw [abs_of_pos hx] at hlow hhigh
    rw [sign_pos hx, sign_pos (by nlinarith)]

/-- Rounding the product does not make the quotient very small. -/
theorem isZeroOrNormal_roundedBase_div (h : IsZeroOrNormal (a.exactBase / u.factor)) :
    IsZeroOrNormal (a.roundedBase / u.factor) := by
  have hf := factor_cast_pos u
  rcases h with hzero | hnormal
  · left
    have hx : a.exactBase = 0 := (div_eq_zero_iff.mp hzero).resolve_right hf.ne'
    rw [roundedBase, hx, nearest_zero, zero_div]
  · right
    rw [IsNormal, abs_div, abs_of_pos hf, le_div_iff₀ hf] at hnormal ⊢
    -- The least such product has few digits, so it is not changed by rounding.
    have hkept : IsKept (10 ^ (-999999 : ℤ) * u.factor) := by
      refine ⟨u.factor, -999999, ?_, by decide, ?_⟩
      · cases u <;> decide
      · rw [Int.cast_natCast, mul_comm]
    calc 10 ^ (-999999 : ℤ) * (u.factor : ℚ) = nearest (10 ^ (-999999 : ℤ) * u.factor) :=
          (nearest_of_isKept hkept).symm
      _ ≤ nearest |a.exactBase| := nearest_mono hnormal
      _ = |a.roundedBase| := nearest_abs _

/-- What is promised of the number `r` of units `u` to which an amount is converted. -/
structure IsAccurate (a : Amount) (u : MeasureUnit) (r : Decimal) : Prop where
  finite : r.IsFinite
  /-- The errors of the product and of the quotient. -/
  error : |r.toRat * u.factor - a.exactBase| ≤ roundingError 2 * |a.exactBase|
  /-- The value has the sign of the exact one, and is zero only if that is. -/
  sign : SignType.sign r.toRat = SignType.sign a.exactBase
  /-- The number is written with the sign of the amount, even if it is zero. -/
  negative : r.negative = a.value.negative
  /-- Few digits are all kept. -/
  exact : IsShort a.exactBase → IsShort (a.exactBase / u.factor) →
    r.toRat * u.factor = a.exactBase

theorem isAccurate_of_roundedIn {r : Decimal} (hne : u ≠ a.unit) (hx : IsZeroOrNormal a.exactBase)
    (hq : IsZeroOrNormal (a.exactBase / u.factor)) (hr : r.IsFinite)
    (hvalue : r.toRat = a.roundedIn u) (hsign : r.negative = a.value.negative) :
    IsAccurate a u r := by
  have hf := factor_cast_pos u
  rw [roundedIn_of_ne hne] at hvalue
  have herror : |r.toRat * u.factor - a.exactBase| ≤ roundingError 2 * |a.exactBase| := by
    rw [hvalue]
    exact error_of_errors hf (nearest_error_of_isZeroOrNormal hx)
      (nearest_error_of_isZeroOrNormal (isZeroOrNormal_roundedBase_div hq))
  constructor
  case finite => exact hr
  case error => exact herror
  case sign =>
    have hsmall : roundingError 2 < 1 := by norm_num [roundingError, unitRoundoff]
    rw [← sign_eq_of_error hsmall herror, sign_mul, sign_pos hf, mul_comm, one_mul]
  case negative => exact hsign
  case exact =>
    intro hshort hshort'
    have hproduct : a.roundedBase = a.exactBase := nearest_of_isKept (hshort.isKept hx)
    rw [hvalue, hproduct, nearest_of_isKept (hshort'.isKept hq), div_mul_cancel₀ _ hf.ne']

/-! ## Order -/

theorem roundedIn_mono (hne : u ≠ a.unit) (hne' : u ≠ b.unit) (h : a.roundedBase ≤ b.roundedBase) :
    a.roundedIn u ≤ b.roundedIn u := by
  rw [roundedIn_of_ne hne, roundedIn_of_ne hne']
  exact nearest_mono (div_le_div_of_nonneg_right h (factor_cast_pos u).le)

/-- Decimals are compared as other numbers are. -/
theorem relate_decimal {r s : Decimal} (hr : r.IsFinite) (hs : s.IsFinite) (rel : Relation) :
    Value.relate rel (.decimal r) (.decimal s) = .ok (rel.holds (compare r.toRat s.toRat)) := by
  have hnan : (r.isNaN || s.isNaN) = false := by rw [hr.isNaN_eq, hs.isNaN_eq]; rfl
  rw [← compareNumbers_eq hr hs]
  simp [Value.relate, Value.exactNumber?, Value.relateNumbers, hnan]

/-- Amounts that are compared are of one kind and have base values. -/
theorem isComparable_of_relate {rel : Relation} {t : Bool} (ha : a.value.IsFinite)
    (hb : b.value.IsFinite) (h : a.relate rel b = .ok t) :
    a.kind = b.kind ∧ a.IsComparable ∧ b.IsComparable := by
  unfold relate at h
  split at h
  · next hkind =>
    obtain ⟨l, hl, -⟩ := bind_eq_ok.mp h
    simp only [lessBase, compareBase, signaling, mapError_eq_ok, bind_eq_ok] at hl
    obtain ⟨x, hx, y, hy, -⟩ := hl
    exact ⟨hkind, ⟨ha, by simp [hx]⟩, ⟨hb, by simp [hy]⟩⟩
  · exact absurd h (by simp)

/--
**A conversion is accurate and monotone.**

For a finite amount and another unit of its kind. The conversion fails only with an overflow, and
that exactly if the rounded product is beyond the largest number. If neither the exact product nor
the exact quotient is very small, the number that it answers is accurate. Of two amounts in other
units, the lesser one does not become the greater.
-/
theorem convert_accuracy (ha : a.value.IsFinite) (hkind : u.kind = a.kind) (hne : u ≠ a.unit) :
    (∀ e, a.convert (.text u.symbol) = .error e ↔
      e = .signal .overflow ∧ largest < |a.roundedBase|) ∧
    (|a.roundedBase| ≤ largest → IsZeroOrNormal a.exactBase →
      IsZeroOrNormal (a.exactBase / u.factor) →
      ∃ r, a.convert (.text u.symbol) = .ok ⟨r, u⟩ ∧ IsAccurate a u r) ∧
    ∀ b : Amount, b.value.IsFinite → u ≠ b.unit → a.relate .lessEqual b = .ok true →
      ∃ r s, a.convert (.text u.symbol) = .ok ⟨r, u⟩ ∧ b.convert (.text u.symbol) = .ok ⟨s, u⟩ ∧
        Value.relate .lessEqual (.decimal r) (.decimal s) = .ok true := by
  refine ⟨?fails, ?accurate, ?monotone⟩
  case fails =>
    intro e
    rw [convert_symbol hkind]
    rcases toUnit_eq ha hne with ⟨hbeyond, h⟩ | ⟨hfits, r, h, -⟩
    · rw [h, and_iff_left hbeyond]
      exact ⟨fun heq => (Except.error.inj heq).symm, fun heq => heq ▸ rfl⟩
    · rw [h]
      exact ⟨fun heq => absurd heq (by simp [signaling, Except.mapError]),
        fun heq => absurd heq.2 hfits.not_gt⟩
  case accurate =>
    intro hfits hx hq
    rcases toUnit_eq ha hne with ⟨hbeyond, -⟩ | ⟨-, r, h, hr, hvalue, hsign⟩
    · exact absurd hbeyond hfits.not_gt
    · refine ⟨r, ?_, isAccurate_of_roundedIn hne hx hq hr hvalue hsign⟩
      rw [convert_symbol hkind, h]
      rfl
  case monotone =>
    intro b hb hne' hle
    obtain ⟨hkind', hca, hcb⟩ := isComparable_of_relate ha hb hle
    have hbase : a.roundedBase ≤ b.roundedBase := by
      rw [relate_eq hca hcb hkind', Except.ok.injEq, Relation.holds, bne_iff_ne] at hle
      exact compare_le_iff_le.mp hle
    have converts {c : Amount} (hc : c.IsComparable) (hck : c.kind = a.kind) (hcu : u ≠ c.unit) :
        ∃ r, c.convert (.text u.symbol) = .ok ⟨r, u⟩ ∧ r.IsFinite ∧ r.toRat = c.roundedIn u := by
      rcases toUnit_eq hc.finite hcu with ⟨hbeyond, -⟩ | ⟨-, r, h, hr, hvalue, -⟩
      · exact absurd ((baseValue_eq_overflow_iff hc.finite).mpr hbeyond) hc.fits
      · refine ⟨r, ?_, hr, hvalue⟩
        rw [convert_symbol (hkind.trans hck.symm), h]
        rfl
    obtain ⟨r, hr, hrf, hrv⟩ := converts hca rfl hne
    obtain ⟨s, hs, hsf, hsv⟩ := converts hcb hkind'.symm hne'
    refine ⟨r, s, hr, hs, ?_⟩
    rw [relate_decimal hrf hsf, hrv, hsv, Except.ok.injEq, Relation.holds, bne_iff_ne]
    exact compare_le_iff_le.mpr (roundedIn_mono hne hne' hbase)

/-- A number of seconds that has four digits too many. -/
def sampleSeconds : Amount :=
  ⟨.finite false (10 ^ 31 + 1) (-29), .second⟩

/-- Some seconds and an hour, in minutes. -/
theorem convert_accuracy_minute :
    (∃ r, sampleSeconds.convert (.text "min") = .ok ⟨r, .minute⟩ ∧
      IsAccurate sampleSeconds .minute r) ∧
    ∃ r s, sampleSeconds.convert (.text "min") = .ok ⟨r, .minute⟩ ∧
      Amount.convert ⟨1, .hour⟩ (.text "min") = .ok ⟨s, .minute⟩ ∧
      Value.relate .lessEqual (.decimal r) (.decimal s) = .ok true := by
  have hfinite : sampleSeconds.value.IsFinite := trivial
  have hexact : sampleSeconds.exactBase = (10 ^ 31 + 1) * 10 ^ (-29 : ℤ) * 1000 := by
    norm_num [sampleSeconds, exactBase, toRat_finite, signed, MeasureUnit.factor]
  have hfits : |sampleSeconds.roundedBase| ≤ largest := by
    refine not_lt.mp fun hbeyond => ?_
    have hover := (baseValue_eq_overflow_iff hfinite).mpr hbeyond
    exact absurd hover (by decide +kernel)
  have normal {x : ℚ} (h : 10 ^ (0 : ℤ) ≤ |x|) : IsZeroOrNormal x :=
    .inr ((ten_zpow_le (by decide)).trans h)
  obtain ⟨-, haccurate, hmono⟩ :=
    convert_accuracy (a := sampleSeconds) (u := .minute) hfinite rfl (by decide)
  refine ⟨haccurate hfits (normal ?_) (normal ?_),
    hmono ⟨1, .hour⟩ trivial (by decide) (by decide +kernel)⟩
  · rw [hexact]
    norm_num [abs_of_pos]
  · rw [hexact]
    norm_num [abs_of_pos, MeasureUnit.factor]

end PerfLedger.Amount
