import Mathlib.Order.WithBot
import PerfLedger.Measure.Order
import PerfLedger.Proofs.Fallible
import PerfLedger.Proofs.Measure.Exact

/-!
# The place of an amount

Infinite amounts take part in comparisons as well. The numbers that a base value can be, below all
of them the negative infinity and above all of them the positive one, are one line (`extended`), on
which decimals that are numbers are compared (`compareNumbers_eq_extended`).

An amount has a place on it if its base value is a number (`IsOrderable`), and amounts of one kind
are related as their places are (`relate_eq_place`). Without a place there is no relation
(`isOrderable_of_relate`).
-/

namespace PerfLedger

namespace Decimal

/-- The value of a number that may be infinite. -/
def extended : Decimal → WithBot (WithTop ℚ)
  | .infinite true => ⊥
  | .infinite false => ⊤
  | d => ((d.toRat : WithTop ℚ) : WithBot (WithTop ℚ))

theorem extended_of_finite {d : Decimal} (h : d.IsFinite) :
    d.extended = ((d.toRat : WithTop ℚ) : WithBot (WithTop ℚ)) := by
  obtain ⟨s, n, e, rfl⟩ := h.exists_eq
  rfl

theorem compare_coe (x y : ℚ) :
    compare ((x : WithTop ℚ) : WithBot (WithTop ℚ)) ((y : WithTop ℚ) : WithBot (WithTop ℚ)) =
      compare x y := by
  rw [← cmp_eq_compare, ← cmp_eq_compare]
  exact (WithBot.coe_strictMono.comp WithTop.coe_strictMono).cmp_map_eq x y

/-- **Numbers are compared by their values**, infinite ones too. -/
theorem compareNumbers_eq_extended {a b : Decimal} (ha : a.isNaN = false) (hb : b.isNaN = false) :
    compareNumbers a b = compare a.extended b.extended := by
  cases a with
  | nan s q p => exact absurd ha (by simp [isNaN])
  | finite s n e =>
    cases b with
    | nan t q p => exact absurd hb (by simp [isNaN])
    | finite t m f =>
      have hcompare := compareNumbers_eq (a := .finite s n e) (b := .finite t m f) trivial trivial
      rw [hcompare, ← compare_coe]
      rfl
    | infinite t =>
      cases t with
      | true => exact (compare_gt_iff_gt.mpr (WithBot.bot_lt_coe _)).symm
      | false =>
        exact (compare_lt_iff_lt.mpr (WithBot.coe_lt_coe.mpr (WithTop.coe_lt_top _))).symm
  | infinite s =>
    cases b with
    | nan t q p => exact absurd hb (by simp [isNaN])
    | finite t m f =>
      cases s with
      | true => exact (compare_lt_iff_lt.mpr (WithBot.bot_lt_coe _)).symm
      | false =>
        exact (compare_gt_iff_gt.mpr (WithBot.coe_lt_coe.mpr (WithTop.coe_lt_top _))).symm
    | infinite t =>
      cases s <;> cases t
      · exact (compare_eq_iff_eq.mpr rfl).symm
      · exact (compare_gt_iff_gt.mpr bot_lt_top).symm
      · exact (compare_lt_iff_lt.mpr bot_lt_top).symm
      · exact (compare_eq_iff_eq.mpr rfl).symm

/-- Only a not-a-number signals. -/
theorem isSignaling_eq_false {d : Decimal} (h : d.isNaN = false) : d.isSignaling = false := by
  cases d with
  | nan s q p => exact absurd h (by simp [isNaN])
  | finite s n e => rfl
  | infinite s => rfl

end Decimal

namespace Amount

open Decimal

variable {a b : Amount}

/-- An amount of which the base value can be computed and is a number, perhaps infinite. -/
def IsOrderable (a : Amount) : Prop :=
  ∃ x, a.baseValue = .ok x ∧ x.isNaN = false

instance : DecidablePred IsOrderable := fun a =>
  decidable_of_iff ((a.baseValue.toOption.any fun x => !x.isNaN) = true) <| by
    unfold IsOrderable
    cases a.baseValue <;> simp [Except.toOption]

/-- The place of an amount in the order. -/
def place (a : Amount) : WithBot (WithTop ℚ) :=
  (a.baseValue.toOption.map extended).getD ⊥

theorem place_of_baseValue {x : Decimal} (h : a.baseValue = .ok x) : a.place = x.extended := by
  rw [place, h]
  rfl

theorem IsComparable.isOrderable (h : a.IsComparable) : a.IsOrderable := by
  obtain ⟨x, hx, hfinite, -⟩ := h.exists_baseValue
  exact ⟨x, hx, hfinite.isNaN_eq⟩

theorem IsComparable.place_eq (h : a.IsComparable) :
    a.place = ((a.roundedBase : WithTop ℚ) : WithBot (WithTop ℚ)) := by
  obtain ⟨x, hx, hfinite, hvalue⟩ := h.exists_baseValue
  rw [place_of_baseValue hx, extended_of_finite hfinite, hvalue]

theorem IsComparable.place_le_iff (ha : a.IsComparable) (hb : b.IsComparable) :
    a.place ≤ b.place ↔ a.roundedBase ≤ b.roundedBase := by
  rw [ha.place_eq, hb.place_eq, WithBot.coe_le_coe, WithTop.coe_le_coe]

theorem lessEqual_iff (ha : a.IsComparable) (hb : b.IsComparable) (hkind : a.kind = b.kind) :
    a.relate .lessEqual b = .ok true ↔ a.roundedBase ≤ b.roundedBase := by
  rw [relate_eq ha hb hkind, Except.ok.injEq, Relation.holds, bne_iff_ne, compare_le_iff_le]

/-- Without a place there is no relation. -/
theorem isOrderable_of_relate {r : Relation} {t : Bool} (h : a.relate r b = .ok t) :
    a.IsOrderable ∧ b.IsOrderable := by
  unfold relate at h
  split at h
  · obtain ⟨l, hl, -⟩ := bind_eq_ok.mp h
    simp only [lessBase, compareBase, signaling, mapError_eq_ok, bind_eq_ok] at hl
    obtain ⟨x, hx, y, hy, hless⟩ := hl
    unfold less at hless
    split at hless
    · exact absurd hless (by simp)
    · next hnan =>
      rw [Bool.or_eq_true, not_or, Bool.not_eq_true, Bool.not_eq_true] at hnan
      exact ⟨⟨x, hx, hnan.1⟩, ⟨y, hy, hnan.2⟩⟩
  · exact absurd h (by simp)

section compare

variable (ha : a.IsOrderable) (hb : b.IsOrderable)

include ha hb

theorem lessBase_eq_place : a.lessBase b = .ok (compare a.place b.place == .lt) := by
  obtain ⟨x, hx, hxn⟩ := ha
  obtain ⟨y, hy, hyn⟩ := hb
  rw [place_of_baseValue hx, place_of_baseValue hy, ← compareNumbers_eq_extended hxn hyn, lessBase,
    compareBase, hx, hy]
  show signaling (x.less y) = _
  rw [less, hxn, hyn]
  rfl

theorem equal_eq_place (hkind : a.kind = b.kind) :
    a.equal b = .ok (compare a.place b.place == .eq) := by
  obtain ⟨x, hx, hxn⟩ := ha
  obtain ⟨y, hy, hyn⟩ := hb
  rw [place_of_baseValue hx, place_of_baseValue hy, ← compareNumbers_eq_extended hxn hyn,
    Amount.equal, if_pos hkind, compareBase, hx, hy]
  show signaling (x.equal y) = _
  rw [Decimal.equal, hxn, hyn, isSignaling_eq_false hxn, isSignaling_eq_false hyn]
  rfl

/-- **Amounts are related as their places are.** -/
theorem relate_eq_place (hkind : a.kind = b.kind) (r : Relation) :
    a.relate r b = .ok (r.holds (compare a.place b.place)) := by
  unfold relate
  rw [if_pos hkind, lessBase_eq_place ha hb, equal_eq_place ha hb hkind]
  cases r <;> cases compare a.place b.place <;> rfl

end compare

end Amount

end PerfLedger
