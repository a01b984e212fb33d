import PerfLedger.Measure.Hash
import PerfLedger.Proofs.Decimal.Answer

/-!
# Exact amounts

An amount stands for an exact value in the base unit of its kind (`exactBase`), and its base value
is that value, rounded (`baseValue_answers`). So amounts of one kind are compared by the nearest
numbers of their exact values: they are equal if these are (`equal_eq`), and the relations of the
order hold of them as they do of these (`relate_eq`).
-/

namespace PerfLedger.Amount

open Decimal

variable {a b : Amount}

/-- The value in the base unit, without rounding. -/
def exactBase (a : Amount) : ℚ :=
  a.value.toRat * a.unit.factor

/-- The value in the base unit, rounded. -/
def roundedBase (a : Amount) : ℚ :=
  nearest a.exactBase

/-- A finite amount of which the base value does not overflow. -/
structure IsComparable (a : Amount) : Prop where
  finite : a.value.IsFinite
  fits : a.baseValue ≠ .error .overflow

theorem factor_cast_pos (u : MeasureUnit) : (0 : ℚ) < u.factor := by
  exact_mod_cast u.factor_pos

theorem baseValue_answers (h : a.value.IsFinite) : Answers a.exactBase a.baseValue := by
  have hmul := mul_answers h (b := ofNat a.unit.factor) trivial
  rwa [toRat_ofNat] at hmul

theorem IsComparable.exists_baseValue (h : a.IsComparable) :
    ∃ x, a.baseValue = .ok x ∧ x.IsFinite ∧ x.toRat = a.roundedBase := by
  have hanswers := baseValue_answers h.finite
  refine hanswers.exists_ok (not_lt.mp fun hbeyond => h.fits ?_)
  exact hanswers.eq_overflow_iff.mpr hbeyond

/-! ## Comparison -/

section compare

variable (ha : a.IsComparable) (hb : b.IsComparable)

include ha hb

theorem lessBase_eq : a.lessBase b = .ok (compare a.roundedBase b.roundedBase == .lt) := by
  obtain ⟨x, hx, hxf, hxv⟩ := ha.exists_baseValue
  obtain ⟨y, hy, hyf, hyv⟩ := hb.exists_baseValue
  rw [← hxv, ← hyv, lessBase, compareBase, hx, hy]
  show signaling (x.less y) = _
  rw [less_eq hxf hyf]
  rfl

variable (hkind : a.kind = b.kind)

include hkind

/-- **Amounts are equal if their rounded base values are.** -/
theorem equal_eq : a.equal b = .ok (compare a.roundedBase b.roundedBase == .eq) := by
  obtain ⟨x, hx, hxf, hxv⟩ := ha.exists_baseValue
  obtain ⟨y, hy, hyf, hyv⟩ := hb.exists_baseValue
  rw [← hxv, ← hyv, Amount.equal, if_pos hkind, compareBase, hx, hy]
  show signaling (x.equal y) = _
  rw [Decimal.equal_eq hxf hyf]
  rfl

theorem equal_eq_decide : a.equal b = .ok (decide (a.roundedBase = b.roundedBase)) := by
  rw [equal_eq ha hb hkind, Except.ok.injEq, Bool.eq_iff_iff, beq_iff_eq, compare_eq_iff_eq,
    decide_eq_true_iff]

/-- **Amounts are related as their rounded base values are.** -/
theorem relate_eq (r : Relation) :
    a.relate r b = .ok (r.holds (compare a.roundedBase b.roundedBase)) := by
  unfold relate
  rw [if_pos hkind, lessBase_eq ha hb, equal_eq ha hb hkind]
  cases r <;> cases compare a.roundedBase b.roundedBase <;> rfl

end compare

end PerfLedger.Amount
