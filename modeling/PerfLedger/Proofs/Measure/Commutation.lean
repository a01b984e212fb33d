import PerfLedger.Proofs.Measure.Conversion

/-!
# The order of operands

The result of a sum or difference is in the unit of the left operand, to which the right one is
converted. So the two orders round at different places, and the results need not be equal
(`compareOrders_eq_false`).

Each of them has been rounded four times at most: when the right operand is converted, by the
operation itself, and when its base value is taken. The same error bound therefore holds of both
(`orders_agree`). They are equal if the operands have one unit, if they are converted without loss
and the result has few digits in both units, or if there is only the point to be moved.
-/

namespace PerfLedger

open Decimal

/-- What joins two amounts: their sum, or the absolute value of their difference. -/
inductive Joining where
  | sum
  | distance

namespace Joining

/-- The exact result. -/
def ofRat : Joining → ℚ → ℚ → ℚ
  | .sum, x, y => x + y
  | .distance, x, y => |x - y|

/-- The result for two decimals. -/
def ofDecimal : Joining → Decimal → Decimal → Except Signal Decimal
  | .sum, a, b => a.add b
  | .distance, a, b => do
    let d ← a.sub b
    d.abs

/-- The result for two amounts, in the unit of the left one. -/
def ofAmount : Joining → Amount → Amount → Except AmountFault Amount
  | .sum, a, b => a.add b
  | .distance, a, b => do
    let d ← a.sub b
    d.abs

/-- Whether the results for both orders of two amounts are equal. -/
def compareOrders (j : Joining) (a b : Amount) : Except AmountFault Bool := do
  let s ← j.ofAmount a b
  let t ← j.ofAmount b a
  s.equal t

variable {j : Joining}

/-! ## The exact result -/

theorem ofRat_comm (j : Joining) (x y : ℚ) : j.ofRat x y = j.ofRat y x := by
  cases j with
  | sum => exact add_comm x y
  | distance => exact abs_sub_comm x y

theorem ofRat_mul (j : Joining) (x y : ℚ) {f : ℚ} (hf : 0 < f) :
    j.ofRat (x * f) (y * f) = j.ofRat x y * f := by
  cases j with
  | sum => exact (add_mul x y f).symm
  | distance => rw [ofRat, ofRat, ← sub_mul, abs_mul, abs_of_pos hf]

theorem abs_ofRat_le (j : Joining) (x y : ℚ) : |j.ofRat x y| ≤ |x| + |y| := by
  cases j with
  | sum => exact abs_add_le x y
  | distance =>
    rw [ofRat, abs_abs]
    exact abs_sub x y

/-- An error in the right operand is not enlarged. -/
theorem abs_ofRat_sub_le (j : Joining) (x y z : ℚ) : |j.ofRat x y - j.ofRat x z| ≤ |y - z| := by
  cases j with
  | sum => rw [ofRat, ofRat, add_sub_add_left_eq_sub]
  | distance =>
    calc |(|x - y| - |x - z|)| ≤ |x - y - (x - z)| := abs_abs_sub_abs_le _ _
      _ = |y - z| := by rw [sub_sub_sub_cancel_left, abs_sub_comm]

/-! ## The result -/

/-- A sum and a distance are rounded once. -/
theorem ofDecimal_answers (j : Joining) {a b : Decimal} (ha : a.IsFinite) (hb : b.IsFinite) :
    Answers (j.ofRat a.toRat b.toRat) (j.ofDecimal a b) := by
  cases j with
  | sum => exact add_answers ha hb
  | distance =>
    have hsub := sub_answers ha hb
    have habs : nearest |a.toRat - b.toRat| = |nearest (a.toRat - b.toRat)| := nearest_abs _
    rw [ofRat, ofDecimal]
    cases hd : a.sub b with
    | error e =>
      rw [hd] at hsub
      cases hsub with
      | overflow beyond => exact .overflow (by rwa [habs, abs_abs])
    | ok d =>
      rw [hd] at hsub
      -- The difference has been rounded, so that its absolute value can be kept.
      have hanswers := abs_answers hsub.spec.1
      refine hanswers.congr ?_
      rw [hsub.spec.2, habs, nearest_abs, nearest_nearest]

variable {a b : Amount}

theorem ofAmount_eq (j : Joining) (hkind : a.kind = b.kind) :
    j.ofAmount a b = signaling do
      let c ← b.toUnit a.unit
      let v ← j.ofDecimal a.value c.value
      return ⟨v, a.unit⟩ := by
  cases j with
  | sum => exact if_pos hkind
  | distance =>
    rw [ofAmount, Amount.sub, Amount.combine, if_pos hkind]
    cases b.toUnit a.unit with
    | error e => rfl
    | ok c =>
      show signaling (a.value.sub c.value >>= fun d => .ok (⟨d, a.unit⟩ : Amount)) >>= Amount.abs
        = signaling (a.value.sub c.value >>= Decimal.abs >>= fun v => .ok (⟨v, a.unit⟩ : Amount))
      cases a.value.sub c.value with
      | error e => rfl
      | ok d =>
        show signaling d.abs >>= (fun v => .ok (⟨v, a.unit⟩ : Amount))
          = signaling (d.abs >>= fun v => .ok (⟨v, a.unit⟩ : Amount))
        cases d.abs with
        | error e => rfl
        | ok v => rfl

/-- The number of units that the result has. -/
theorem ofAmount_cases (j : Joining) (ha : a.value.IsFinite) (hb : b.value.IsFinite)
    (hkind : a.kind = b.kind) :
    j.ofAmount a b = .error (.signal .overflow) ∨
      ∃ v, j.ofAmount a b = .ok ⟨v, a.unit⟩ ∧ v.IsFinite ∧
        v.toRat = nearest (j.ofRat a.value.toRat (b.roundedIn a.unit)) := by
  rw [ofAmount_eq j hkind]
  rcases Amount.toUnit_cases hb a.unit with h | ⟨c, h, hc, hvalue⟩
  · left
    rw [h]
    rfl
  · have hanswers := ofDecimal_answers j ha hc
    rw [hvalue] at hanswers
    rw [h]
    show signaling (j.ofDecimal a.value c >>= _) = _ ∨ ∃ v, signaling (j.ofDecimal a.value c >>= _)
      = _ ∧ _
    cases hv : j.ofDecimal a.value c with
    | error e =>
      rw [hv] at hanswers
      exact .inl (hanswers.eq_overflow ▸ rfl)
    | ok v =>
      rw [hv] at hanswers
      exact .inr ⟨v, rfl, hanswers.spec⟩

/-! ## The error -/

/-- The largest error of the base value of a result. -/
def errorBound (a b : Amount) : ℚ :=
  roundingError 4 * (|a.exactBase| + |b.exactBase|) + 10 ^ (-1000016 : ℤ)

theorem errorBound_comm (a b : Amount) : errorBound a b = errorBound b a := by
  rw [errorBound, errorBound, add_comm |a.exactBase|]

theorem factor_cast_le (u : MeasureUnit) : (u.factor : ℚ) ≤ 1024 * 1024 * 1024 := by
  cases u <;> norm_num [MeasureUnit.factor]

/-- The parts of the error that come from the smallest place, with the factors of the unit. -/
theorem smallest_places_le (u : MeasureUnit) {η : ℚ} (hη : 10 ^ minQuantum / 2 = η) :
    (1 + unitRoundoff) * ((1 + unitRoundoff) * ((1 + unitRoundoff) * η + u.factor * η)
      + u.factor * η) + 1 * η ≤ 10 ^ (-1000016 : ℤ) := by
  have hpos : 0 < η := hη ▸ half_pos (ten_zpow_pos minQuantum)
  have hplaces : (10 : ℚ) ^ (-1000016 : ℤ) = 20000000000 * η := by
    have hsplit : (-1000016 : ℤ) = 10 + minQuantum := rfl
    rw [hsplit, ten_zpow_add, ← hη]
    norm_num
    ring
  have hfactor := mul_le_mul_of_nonneg_right (factor_cast_le u) hpos.le
  rw [hplaces, unitRoundoff]
  linarith

/-- A conversion is off by two roundings at most. -/
theorem abs_roundedIn_sub_le (b : Amount) (u : MeasureUnit) {s η : ℚ} (hη : 10 ^ minQuantum / 2 = η)
    (hs : |b.exactBase| ≤ s) :
    |b.roundedIn u * u.factor - b.exactBase| ≤
      roundingError 2 * s + ((1 + unitRoundoff) * η + u.factor * η) := by
  have hf := Amount.factor_cast_pos u
  have hs0 : 0 ≤ s := (abs_nonneg _).trans hs
  have hη0 : 0 < η := hη ▸ half_pos (ten_zpow_pos minQuantum)
  by_cases hu : u = b.unit
  · -- In its own unit the amount has not been rounded.
    have hself : b.roundedIn u * u.factor - b.exactBase = 0 := by
      rw [hu, Amount.roundedIn_self, Amount.exactBase, sub_self]
    have htwo := roundingError_nonneg 2
    have hone : 0 < 1 + unitRoundoff := by norm_num [unitRoundoff]
    rw [hself, abs_zero]
    positivity
  · have hstart : |b.exactBase * 1 - b.exactBase| ≤ roundingError 0 * s + 0 := by
      simp [roundingError]
    have hproduct := error_step one_pos hs hstart (hη ▸ nearest_error _)
    have hquotient : |b.roundedBase / u.factor * u.factor - b.exactBase|
        ≤ roundingError 1 * s + η := by
      rw [div_mul_cancel₀ _ hf.ne']
      simpa [Amount.roundedBase] using hproduct
    rw [Amount.roundedIn_of_ne hu]
    exact error_step hf hs hquotient (hη ▸ nearest_error _)

/-- **A result is off by four roundings at most.** -/
theorem abs_roundedBase_sub_le (j : Joining) {s : Amount} (hunit : s.unit = a.unit)
    (hvalue : s.value.toRat = nearest (j.ofRat a.value.toRat (b.roundedIn a.unit))) :
    |s.roundedBase - j.ofRat a.exactBase b.exactBase| ≤ errorBound a b := by
  obtain ⟨η, hη⟩ : ∃ η : ℚ, 10 ^ minQuantum / 2 = η := ⟨_, rfl⟩
  obtain ⟨f, hf⟩ : ∃ f : ℚ, f = a.unit.factor := ⟨_, rfl⟩
  have hf0 : 0 < f := hf ▸ Amount.factor_cast_pos a.unit
  have herror (x : ℚ) := nearest_error x
  rw [hη] at herror
  have hmagnitude := abs_ofRat_le j a.exactBase b.exactBase
  have hconverted := abs_roundedIn_sub_le b a.unit hη
    (le_add_of_nonneg_left (abs_nonneg a.exactBase))
  rw [← hf] at hconverted
  have hjoined : |j.ofRat a.value.toRat (b.roundedIn a.unit) * f - j.ofRat a.exactBase b.exactBase|
      ≤ roundingError 2 * (|a.exactBase| + |b.exactBase|) + ((1 + unitRoundoff) * η + f * η) := by
    rw [← ofRat_mul j _ _ hf0, hf, ← Amount.exactBase, ← hf]
    exact (abs_ofRat_sub_le j _ _ _).trans hconverted
  have hresult := error_step hf0 hmagnitude hjoined (herror _)
  rw [← hvalue] at hresult
  have hbase := error_step one_pos hmagnitude (v := s.exactBase)
    (by rwa [Amount.exactBase, hunit, ← hf, mul_comm _ (1 : ℚ), one_mul]) (herror _)
  rw [mul_comm _ (1 : ℚ), one_mul] at hbase
  have hplaces := smallest_places_le a.unit hη
  rw [← hf] at hplaces
  rw [errorBound, Amount.roundedBase]
  linarith

/-! ## Both orders -/

/-- The conversion of an amount to a unit loses nothing. -/
def ConvertsExactly (a : Amount) (u : MeasureUnit) : Prop :=
  a.roundedIn u * u.factor = a.exactBase

theorem convertsExactly_self (a : Amount) : ConvertsExactly a a.unit := by
  rw [ConvertsExactly, Amount.roundedIn_self, Amount.exactBase]

/-- A conversion loses nothing if the product and the quotient can be kept. -/
theorem convertsExactly_of_isKept {u : MeasureUnit} (hx : IsKept a.exactBase)
    (hq : IsKept (a.exactBase / u.factor)) : ConvertsExactly a u := by
  by_cases hu : u = a.unit
  · exact hu ▸ convertsExactly_self a
  · rw [ConvertsExactly, Amount.roundedIn_of_ne hu, Amount.roundedBase, nearest_of_isKept hx,
      nearest_of_isKept hq, div_mul_cancel₀ _ (Amount.factor_cast_pos u).ne']

/-- A number of base units is rounded alike in units of `f` and of `g`: the units are one, or
nothing is rounded away in either, or only the point is to be moved. -/
inductive RoundsAlike (x f g : ℚ) : Prop where
  | one (h : f = g)
  | kept (left : IsKept (x / f)) (right : IsKept (x / g))
  | point (k : ℤ) (h : g = f * 10 ^ k) (left : IsZeroOrNormal (x / f))
    (right : IsZeroOrNormal (x / g))

theorem RoundsAlike.eq {x f g : ℚ} (h : RoundsAlike x f g) (hf : 0 < f) (hg : 0 < g) :
    nearest (x / f) * f = nearest (x / g) * g := by
  cases h with
  | one h => rw [h]
  | kept left right =>
    rw [nearest_of_isKept left, nearest_of_isKept right, div_mul_cancel₀ _ hf.ne',
      div_mul_cancel₀ _ hg.ne']
  | point k h left right =>
    have hpos := ten_zpow_pos k
    have hx : x / f = x / g * 10 ^ k := by
      rw [h, ← div_div, div_mul_cancel₀ _ hpos.ne']
    rw [hx] at left ⊢
    rw [nearest_mul_zpow right left, h, mul_assoc, mul_comm f]

/-- What is promised of the results `s` and `t` for the two orders of the amounts `a` and `b`. -/
structure Agree (j : Joining) (a b s t : Amount) : Prop where
  left : j.ofAmount a b = .ok s ∧ s.unit = a.unit ∧ s.IsComparable
  right : j.ofAmount b a = .ok t ∧ t.unit = b.unit ∧ t.IsComparable
  compared : j.compareOrders a b = .ok (decide (s.roundedBase = t.roundedBase))
  /-- One bound holds of the errors of both. -/
  error_left : |s.roundedBase - j.ofRat a.exactBase b.exactBase| ≤ errorBound a b
  error_right : |t.roundedBase - j.ofRat a.exactBase b.exactBase| ≤ errorBound a b
  /-- They are equal if no conversion loses anything and the exact result is rounded alike. -/
  equal : ConvertsExactly a b.unit → ConvertsExactly b a.unit →
    RoundsAlike (j.ofRat a.exactBase b.exactBase) a.unit.factor b.unit.factor →
    j.compareOrders a b = .ok true
  /-- They are equal if there is nothing to convert. -/
  equal_of_unit : a.unit = b.unit → j.compareOrders a b = .ok true

/-- The base value, if the right operand is converted without loss. -/
theorem roundedBase_of_convertsExactly {s : Amount} (hunit : s.unit = a.unit)
    (hvalue : s.value.toRat = nearest (j.ofRat a.value.toRat (b.roundedIn a.unit)))
    (h : ConvertsExactly b a.unit) :
    s.roundedBase = nearest (nearest (j.ofRat a.exactBase b.exactBase / a.unit.factor)
      * a.unit.factor) := by
  have hf := Amount.factor_cast_pos a.unit
  have hexact : j.ofRat a.exactBase b.exactBase / a.unit.factor
      = j.ofRat a.value.toRat (b.roundedIn a.unit) := by
    rw [div_eq_iff hf.ne', ← ofRat_mul j _ _ hf, h, Amount.exactBase]
  rw [Amount.roundedBase, Amount.exactBase, hunit, hvalue, hexact]

/-- Amounts of which the comparison does not overflow have base values. -/
theorem isComparable_of_equal {s t : Amount} (hs : s.value.IsFinite) (ht : t.value.IsFinite)
    (hkind : s.kind = t.kind) (h : s.equal t ≠ .error (.signal .overflow)) :
    s.IsComparable ∧ t.IsComparable := by
  rw [Amount.equal, if_pos hkind, Amount.compareBase] at h
  have hleft : s.IsComparable := by
    refine ⟨hs, fun hover => h ?_⟩
    rw [hover]
    rfl
  refine ⟨hleft, ht, fun hover => h ?_⟩
  obtain ⟨x, hx, -⟩ := hleft.exists_baseValue
  rw [hx, hover]
  rfl

/--
**The order of the operands does not matter, up to rounding.**

For the sum, and for the absolute value of the difference, of two finite amounts of one kind. If
nothing overflows, both orders have a result, and the base values of both are near the exact result.
They are equal if the operands have one unit, or if neither is changed by its conversion and the
exact result is rounded alike in both units.
-/
theorem orders_agree (j : Joining) (ha : a.value.IsFinite) (hb : b.value.IsFinite)
    (hkind : a.kind = b.kind) (hfits : j.compareOrders a b ≠ .error (.signal .overflow)) :
    ∃ s t, j.Agree a b s t := by
  rw [compareOrders] at hfits
  rcases ofAmount_cases j ha hb hkind with hs | ⟨v, hs, hvf, hvv⟩
  · rw [hs] at hfits
    exact absurd rfl hfits
  rcases ofAmount_cases j hb ha hkind.symm with ht | ⟨w, ht, hwf, hwv⟩
  · rw [hs, ht] at hfits
    exact absurd rfl hfits
  have hcompare : j.compareOrders a b = Amount.equal ⟨v, a.unit⟩ ⟨w, b.unit⟩ := by
    rw [compareOrders, hs, ht]
    rfl
  rw [hs, ht] at hfits
  obtain ⟨hsc, htc⟩ :=
    isComparable_of_equal (s := ⟨v, a.unit⟩) (t := ⟨w, b.unit⟩) hvf hwf hkind hfits
  have hdecide := hcompare.trans (Amount.equal_eq_decide hsc htc hkind)
  have hequal (hab : ConvertsExactly a b.unit) (hba : ConvertsExactly b a.unit)
      (halike : RoundsAlike (j.ofRat a.exactBase b.exactBase) a.unit.factor b.unit.factor) :
      j.compareOrders a b = .ok true := by
    have hright := roundedBase_of_convertsExactly (a := b) (s := ⟨w, b.unit⟩) rfl hwv hab
    rw [ofRat_comm, ← halike.eq (Amount.factor_cast_pos _) (Amount.factor_cast_pos _)] at hright
    have hleft := roundedBase_of_convertsExactly (a := a) (s := ⟨v, a.unit⟩) rfl hvv hba
    rw [hdecide, decide_eq_true (hleft.trans hright.symm)]
  refine ⟨⟨v, a.unit⟩, ⟨w, b.unit⟩, ?_⟩
  constructor
  case left => exact ⟨hs, rfl, hsc⟩
  case right => exact ⟨ht, rfl, htc⟩
  case compared => exact hdecide
  case error_left => exact abs_roundedBase_sub_le j rfl hvv
  case error_right =>
    have herror := abs_roundedBase_sub_le j (a := b) (s := ⟨w, b.unit⟩) rfl hwv
    rwa [ofRat_comm, errorBound_comm] at herror
  case equal => exact hequal
  case equal_of_unit =>
    intro hunit
    have hab : ConvertsExactly a b.unit := hunit ▸ convertsExactly_self a
    have hba : ConvertsExactly b a.unit := hunit ▸ convertsExactly_self b
    exact hequal hab hba (.one (by rw [hunit]))

/-- The results for one second and half of one, in milliseconds, are equal. Those for two hours and
a millisecond need not be, but have one error bound. -/
theorem orders_agree_units :
    Joining.distance.compareOrders ⟨1, .second⟩ ⟨.finite false 500 0, .millisecond⟩ = .ok true ∧
      ∃ s t, Agree .sum ⟨.finite false 2 0, .hour⟩ ⟨1, .millisecond⟩ s t := by
  have hsecond : Amount.exactBase ⟨1, .second⟩ = 1000 := by
    have hone : toRat 1 = 1 := by rw [← Nat.cast_one, ← toRat_ofNat]; rfl
    norm_num [Amount.exactBase, hone, MeasureUnit.factor]
  have hhalf : Amount.exactBase ⟨.finite false 500 0, .millisecond⟩ = 500 := by
    norm_num [Amount.exactBase, toRat_finite, signed, MeasureUnit.factor]
  obtain ⟨s, t, h⟩ := orders_agree .distance (a := ⟨1, .second⟩)
    (b := ⟨.finite false 500 0, .millisecond⟩) trivial trivial rfl (by decide +kernel)
  refine ⟨h.equal (convertsExactly_of_isKept ?_ ?_) (convertsExactly_of_isKept ?_ ?_)
    (.kept ?_ ?_), orders_agree .sum trivial trivial rfl (by decide +kernel)⟩
  · exact ⟨1, 3, by decide, by decide, by norm_num [hsecond]⟩
  · exact ⟨1, 3, by decide, by decide, by norm_num [hsecond, MeasureUnit.factor]⟩
  · exact ⟨5, 2, by decide, by decide, by norm_num [hhalf]⟩
  · exact ⟨5, -1, by decide, by decide, by norm_num [hhalf, MeasureUnit.factor]⟩
  · exact ⟨5, -1, by decide, by decide, by norm_num [hsecond, hhalf, ofRat, MeasureUnit.factor]⟩
  · exact ⟨5, 2, by decide, by decide, by norm_num [hsecond, hhalf, ofRat, MeasureUnit.factor]⟩

/-- Neither the sums nor the distances of two hours and a millisecond are equal. -/
theorem compareOrders_eq_false :
    Joining.sum.compareOrders ⟨.finite false 2 0, .hour⟩ ⟨1, .millisecond⟩ = .ok false ∧
      Joining.distance.compareOrders ⟨.finite false 2 0, .hour⟩ ⟨1, .millisecond⟩ = .ok false :=
  ⟨by decide +kernel, by decide +kernel⟩

end Joining

end PerfLedger
