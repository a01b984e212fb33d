import PerfLedger.Measure.Amount
import PerfLedger.Proofs.Decimal.Rounding
import PerfLedger.Proofs.Fallible

/-!
# Amounts in base units

An amount is converted to the base unit of its kind by rounding, unless it is in that unit already;
then it keeps all its digits. Either way what comes out can be written as a numeral.
-/

namespace PerfLedger.Amount

/-- An amount whose number can be written as a numeral. -/
def IsRepresentable (a : Amount) : Prop :=
  a.value.IsRepresentable

theorem inBaseUnits_eq_ok {a : Amount} {k : MeasureKind} {t : Decimal} :
    a.inBaseUnits k = .ok t ↔
      a.kind = k ∧ ∃ b, a.toUnit (MeasureUnit.base k) = .ok b ∧ b.value = t := by
  unfold inBaseUnits
  split
  · next h => simp only [map_eq_ok, signaling, mapError_eq_ok, h, true_and]
  · next h => simp [h]

theorem toUnit_eq_ok {a b : Amount} {u : MeasureUnit} (h : a.toUnit u = .ok b) :
    b.unit = u ∧ (b = a ∨ b.value.FitsPrecision) := by
  unfold toUnit at h
  split at h
  · next hu =>
    obtain rfl := Except.ok.inj h
    exact ⟨hu.symm, .inl rfl⟩
  · simp only [bind_eq_ok, pure_eq_ok] at h
    obtain ⟨x, -, q, hq, rfl⟩ := h
    exact ⟨rfl, .inr (Decimal.div_fits hq)⟩

theorem inBaseUnits_isRepresentable {a : Amount} {k : MeasureKind} {t : Decimal}
    (h : a.IsRepresentable) (ht : a.inBaseUnits k = .ok t) : t.IsRepresentable := by
  obtain ⟨-, b, hb, rfl⟩ := inBaseUnits_eq_ok.mp ht
  rcases (toUnit_eq_ok hb).2 with rfl | hfits
  · exact h
  · exact Decimal.isRepresentable_of_fits hfits

end PerfLedger.Amount
