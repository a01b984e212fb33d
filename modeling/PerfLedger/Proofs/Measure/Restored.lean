import PerfLedger.Measure.Order
import PerfLedger.Proofs.Decimal.Congr
import PerfLedger.Proofs.Measure.Base

/-!
# Amounts that are computed with alike

An amount and what is read back of it need not be in one unit, and a conversion rounds. All the same
they have one base value (`restores_of_inBaseUnits`): the base value is rounded before it is stored,
and rounding it again, or multiplying it by one, does not change it; an amount that is stored
unrounded has its base value rounded from the same digits.

So such amounts are equal (`Restores.equal`), stand in the same relations (`Restores.relate_eq`) and
add the same number to a sum in the base unit (`Restores.add`).
-/

namespace PerfLedger.Amount

open Decimal

variable {k : MeasureKind} {a p b q : Amount}

/-- The second amount is in the base unit and is the first one converted; they have one base value,
which is a number. -/
structure Restores (k : MeasureKind) (a p : Amount) : Prop where
  kind : a.kind = k
  unit : p.unit = MeasureUnit.base k
  converted : ∃ c, a.toUnit (MeasureUnit.base k) = .ok c ∧ c.value.Same p.value ∧
    c.value.isNaN = false
  base : ∃ x y, a.baseValue = .ok x ∧ p.baseValue = .ok y ∧ x.Same y ∧ x.isNaN = false

/-- Amounts in the base unit of one number, which is not rounded any further. -/
structure InBase (k : MeasureKind) (a p : Amount) : Prop where
  left : a.unit = MeasureUnit.base k
  right : p.unit = MeasureUnit.base k
  same : a.value.Same p.value
  answer : a.value.IsAnswer

theorem baseValue_of_base (h : p.unit = MeasureUnit.base k) :
    p.baseValue = p.value.mul (ofNat 1) := by
  rw [baseValue, h, MeasureUnit.factor_base]

theorem kind_of_base (h : p.unit = MeasureUnit.base k) : p.kind = k := by
  rw [kind, h, MeasureUnit.kind_base]

/-- Only a number has a number for its base value. -/
theorem isNaN_eq_false {x : Decimal} (h : a.baseValue = .ok x) (hx : x.isNaN = false) :
    a.value.isNaN = false := by
  obtain ⟨v, u⟩ := a
  cases v with
  | finite s n e => rfl
  | infinite s => rfl
  | nan s signaling payload =>
    cases signaling with
    | true => exact absurd h (by simp [baseValue, mul, nanOf?, ofNat])
    | false =>
      obtain rfl : quieted s payload = x := Except.ok.inj h
      exact absurd hx (by simp [quieted, isNaN])

theorem InBase.restores (h : InBase k a p) : Restores k a p := by
  refine ⟨kind_of_base h.left, h.right, ⟨a, if_pos h.left.symm, h.same, h.answer.number⟩, ?_⟩
  rw [baseValue_of_base h.left, baseValue_of_base h.right]
  obtain ⟨x, hx, hsame⟩ := (mul_one h.answer).symm.exists_ok
  rw [hx]
  have hmul := mul_congr h.same (.refl (ofNat 1))
  rw [hx] at hmul
  obtain ⟨y, hy, hxy⟩ := hmul.exists_ok
  exact ⟨x, y, rfl, hy, hxy, hsame.isNaN_eq ▸ h.answer.number⟩

/-- **What is read back of an amount is computed with like the amount.** -/
theorem restores_of_inBaseUnits {t x : Decimal} (ht : a.inBaseUnits k = .ok t)
    (hp : p.value.Same t) (hu : p.unit = MeasureUnit.base k) (hx : a.baseValue = .ok x)
    (hnan : x.isNaN = false) : Restores k a p := by
  obtain ⟨hkind, c, hc, rfl⟩ := inBaseUnits_eq_ok.mp ht
  have hnumber := isNaN_eq_false hx hnan
  have hmul := mul_congr hp (.refl (ofNat 1))
  rw [← baseValue_of_base hu] at hmul
  unfold toUnit at hc
  split at hc
  · next hbase =>
    -- The amount is stored as it is.
    obtain rfl := Except.ok.inj hc
    rw [← baseValue_of_base hbase.symm, hx] at hmul
    obtain ⟨y, hy, hxy⟩ := hmul.symm.exists_ok
    exact ⟨hkind, hu, ⟨a, if_pos hbase, hp.symm, hnumber⟩, x, y, hx, hy, hxy, hnan⟩
  · next hbase =>
    -- The amount is stored as its base value, divided by one.
    simp only [bind_eq_ok, pure_eq_ok, hx, Except.ok.injEq, exists_eq_left'] at hc
    obtain ⟨v, hv, rfl⟩ := hc
    rw [MeasureUnit.factor_base] at hv
    have hanswer : x.IsAnswer := mul_isAnswer hnumber rfl hx
    have hdiv := div_one hanswer
    rw [hv] at hdiv
    obtain ⟨x', hx', hvx⟩ := hdiv.exists_ok
    obtain rfl := Except.ok.inj hx'
    have hone := (hmul.trans (mul_congr hvx (.refl (ofNat 1)))).trans (mul_one hanswer)
    obtain ⟨y, hy, hxy⟩ := hone.symm.exists_ok
    refine ⟨hkind, hu, ⟨⟨v, MeasureUnit.base k⟩, ?_, hp.symm, ?_⟩, x, y, hx, hy, hxy, hnan⟩
    · rw [toUnit, if_neg hbase, hx]
      simp only [bind, Except.bind, MeasureUnit.factor_base, hv]
      rfl
    · rw [hvx.isNaN_eq]
      exact hnan

/-! ## Comparison -/

theorem Restores.equal (h : Restores k a p) : p.equal a = .ok true := by
  obtain ⟨x, y, hx, hy, hxy, hnan⟩ := h.base
  have htest := equal_of_same hxy.symm (hxy.isNaN_eq ▸ hnan)
  unfold Amount.equal compareBase
  rw [if_pos (by rw [kind_of_base h.unit, h.kind]), hx, hy]
  show signaling (y.equal x) = _
  rw [htest]
  rfl

/-- Comparisons do not see which amounts are compared. -/
theorem Restores.compareBase_eq (h : Restores k a p) (h' : Restores k b q)
    {test : Decimal → Decimal → Except Signal Bool}
    (htest : ∀ x y x' y', x.Same y → x'.Same y' → test x x' = test y y') :
    compareBase test a b = compareBase test p q := by
  obtain ⟨x, y, hx, hy, hxy, -⟩ := h.base
  obtain ⟨x', y', hx', hy', hxy', -⟩ := h'.base
  unfold compareBase
  rw [hx, hy, hx', hy']
  exact htest x y x' y' hxy hxy'

theorem Restores.relate_eq (h : Restores k a p) (h' : Restores k b q) (r : Relation) :
    a.relate r b = p.relate r q := by
  have hkind : a.kind = b.kind := h.kind.trans h'.kind.symm
  have hkind' : p.kind = q.kind := by rw [kind_of_base h.unit, kind_of_base h'.unit]
  have hless : a.lessBase b = p.lessBase q := by
    rw [lessBase, lessBase, h.compareBase_eq h' fun _ _ _ _ hx hy => less_congr hx hy]
  have hequal : Amount.equal a b = Amount.equal p q := by
    rw [Amount.equal, Amount.equal, if_pos hkind, if_pos hkind',
      h.compareBase_eq h' fun _ _ _ _ hx hy => equal_congr hx hy]
  unfold relate
  rw [if_pos hkind, if_pos hkind', hless, hequal]

/-! ## Arithmetic -/

theorem inBase_zero (k : MeasureKind) : InBase k (zero k) (zero k) := by
  refine ⟨rfl, rfl, .refl _, ⟨?_, ?_, ?_⟩, rfl⟩
  · decide
  · decide
  · rw [digitCount_eq_log]
    decide

/-- What is read back of an amount adds the same to a sum. -/
theorem Restores.add {s s' : Amount} (hs : InBase k s s') (h : Restores k a p) :
    Agree (InBase k) (s.add a) (s'.add p) := by
  obtain ⟨c, hc, hsame, hnumber⟩ := h.converted
  have hp : p.toUnit (MeasureUnit.base k) = .ok p := if_pos h.unit.symm
  unfold Amount.add combine
  rw [if_pos (by rw [kind_of_base hs.left, h.kind]),
    if_pos (by rw [kind_of_base hs.right, kind_of_base h.unit]), hs.left, hs.right, hc, hp]
  -- Both sums are made in the base unit, to which the amount is converted first.
  refine Agree.mapError ?_ _
  exact (add_congr hs.same hsame).attach.bind fun v v' ⟨hv, hvv'⟩ =>
    .ok ⟨rfl, rfl, hvv', add_isAnswer hs.answer.number hnumber hv⟩

/-- A sum is divided alike. -/
theorem InBase.divBy (h : InBase k a p) {d : Decimal} (hd : d.isNaN = false) :
    Agree (InBase k) (a.divBy d) (p.divBy d) :=
  ((div_congr h.same d).attach.mapError _).bind fun _ _ ⟨hv, hvv'⟩ =>
    .ok ⟨h.left, h.right, hvv', div_isAnswer h.answer.number hd hv⟩

end PerfLedger.Amount
