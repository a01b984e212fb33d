import Mathlib.Order.OrderDual
import PerfLedger.Results.Operation
import PerfLedger.Proofs.Measure.Place
import PerfLedger.Proofs.Measure.Ranking

/-!
# Least and greatest measures

The least and the greatest of the measures of operations, which may be in different units, are found
by comparing each with the best one so far. If all of them have a place in the order, what is found
is the first of those that no measure beats (`ofAmounts_isEarliest`), as it stands in its operation.
Which one that is depends on the order of the operations, but all that could be found are equal
(`equal_of_perm`). Otherwise nothing is found, if there are two operations at least
(`exists_error_iff`): each measure takes part in a comparison.
-/

namespace PerfLedger

/-- The relation in which a measure has to stand to the best one so far to take its place. -/
def Statistic.beats? : Statistic → Option Relation
  | .average => none
  | .least => some .less
  | .greatest => some .greater

theorem Statistic.beats?_eq_some {s : Statistic} {r : Relation} :
    s.beats? = some r ↔ s = .least ∧ r = .less ∨ s = .greatest ∧ r = .greater := by
  cases s <;> simp [beats?, eq_comm]

namespace Amount

variable {k : MeasureKind} {r : Relation} {a a' b : Amount} {as as' : List Amount}

/-- Amounts of one kind that have places. -/
def AreOrderable (k : MeasureKind) (as : List Amount) : Prop :=
  ∀ a ∈ as, a.kind = k ∧ a.IsOrderable

/-- The first of the amounts that none of them beats. -/
structure IsEarliest (r : Relation) (as : List Amount) (a : Amount) : Prop where
  unbeaten : ∀ b ∈ as, b.relate r a = .ok false
  /-- It is one of the amounts, and each one before it is beaten. -/
  first : ∃ before after, as = before ++ a :: after ∧
    ∀ b ∈ before, ∃ c ∈ as, c.relate r b = .ok true

theorem IsEarliest.mem (h : IsEarliest r as a) : a ∈ as := by
  obtain ⟨before, after, rfl, -⟩ := h.first
  exact List.mem_append_right _ List.mem_cons_self

theorem relate_less_eq (ha : a.IsOrderable) (hb : b.IsOrderable) (hkind : a.kind = b.kind) :
    a.relate .less b = .ok (decide (a.place < b.place)) := by
  rw [relate_eq_place ha hb hkind, Relation.holds, Except.ok.injEq, Bool.eq_iff_iff, beq_iff_eq,
    compare_lt_iff_lt, decide_eq_true_iff]

theorem relate_greater_eq (ha : a.IsOrderable) (hb : b.IsOrderable) (hkind : a.kind = b.kind) :
    a.relate .greater b = .ok (decide (b.place < a.place)) := by
  rw [relate_eq_place ha hb hkind, Relation.holds, Except.ok.injEq, Bool.eq_iff_iff, beq_iff_eq,
    compare_gt_iff_gt, decide_eq_true_iff]

theorem place_le_of_not_less (ha : a.IsOrderable) (hb : b.IsOrderable) (hkind : a.kind = b.kind)
    (h : a.relate .less b = .ok false) : b.place ≤ a.place := by
  rw [relate_less_eq ha hb hkind, Except.ok.injEq, decide_eq_false_iff_not] at h
  exact not_lt.mp h

theorem place_le_of_not_greater (ha : a.IsOrderable) (hb : b.IsOrderable)
    (hkind : a.kind = b.kind) (h : a.relate .greater b = .ok false) : a.place ≤ b.place := by
  rw [relate_greater_eq ha hb hkind, Except.ok.injEq, decide_eq_false_iff_not] at h
  exact not_lt.mp h

theorem relate_lessEqual_eq (ha : a.IsOrderable) (hb : b.IsOrderable) (hkind : a.kind = b.kind) :
    a.relate .lessEqual b = .ok (decide (a.place ≤ b.place)) := by
  rw [relate_eq_place ha hb hkind, Relation.holds, Except.ok.injEq, Bool.eq_iff_iff, bne_iff_ne,
    compare_le_iff_le, decide_eq_true_iff]

theorem equal_of_place_eq (ha : a.IsOrderable) (hb : b.IsOrderable) (hkind : a.kind = b.kind)
    (h : a.place = b.place) : a.equal b = .ok true := by
  rw [equal_eq_place ha hb hkind, compare_eq_iff_eq.mpr h]
  rfl

/-- If a relation compares ranks, the first of the amounts of least rank is the first unbeaten
one. -/
theorem isEarliest_of_firstLeast {β : Type} [LinearOrder β] {rank : Amount → β}
    (hrank : ∀ a ∈ as, ∀ b ∈ as, a.relate r b = .ok (decide (rank a < rank b)))
    (h : Ranking.FirstLeast rank as a) : IsEarliest r as a := by
  have ha := h.mem
  constructor
  case unbeaten =>
    intro b hb
    rw [hrank b hb a ha, decide_eq_false (h.le hb).not_gt]
  case first =>
    obtain ⟨before, after, rfl, hbefore, -⟩ := h
    refine ⟨before, after, rfl, fun b hb => ⟨a, ha, ?_⟩⟩
    rw [hrank a ha b (List.mem_append_left _ hb), decide_eq_true (hbefore b hb)]

end Amount

namespace Statistic

open Amount

variable {s : Statistic} {k : MeasureKind} {r : Relation} {a a' : Amount} {as as' : List Amount}

theorem ofAmounts_cons (hs : s.beats? = some r) (a : Amount) (as : List Amount) :
    s.ofAmounts k (a :: as) = Ranking.best (relate r) a as := by
  obtain ⟨rfl, rfl⟩ | ⟨rfl, rfl⟩ := beats?_eq_some.mp hs
  · rfl
  · rfl

/-- **What is found is the first measure that none beats.** -/
theorem ofAmounts_isEarliest (hs : s.beats? = some r) (hne : as ≠ []) (has : AreOrderable k as) :
    ∃ a, s.ofAmounts k as = .ok a ∧ IsEarliest r as a := by
  obtain ⟨x, xs, rfl⟩ := List.exists_cons_of_ne_nil hne
  have find {β : Type} [LinearOrder β] (rank : Amount → β)
      (hrank : ∀ a ∈ x :: xs, ∀ b ∈ x :: xs, a.relate r b = .ok (decide (rank a < rank b))) :
      ∃ a, s.ofAmounts k (x :: xs) = .ok a ∧ IsEarliest r (x :: xs) a := by
    obtain ⟨a, ha, hfirst⟩ := Ranking.best_firstLeast hrank
    exact ⟨a, (ofAmounts_cons hs x xs).trans ha, isEarliest_of_firstLeast hrank hfirst⟩
  have hkind {a b : Amount} (ha : a ∈ x :: xs) (hb : b ∈ x :: xs) : a.kind = b.kind :=
    (has a ha).1.trans (has b hb).1.symm
  obtain ⟨-, rfl⟩ | ⟨-, rfl⟩ := beats?_eq_some.mp hs
  · exact find place fun a ha b hb =>
      relate_less_eq (has a ha).2 (has b hb).2 (hkind ha hb)
  · -- The ranks of the greatest are the places, the other way round.
    exact find (fun a => OrderDual.toDual a.place) fun a ha b hb =>
      relate_greater_eq (has a ha).2 (has b hb).2 (hkind ha hb)

/-- **Nothing is found of two measures or more exactly if one of them has no place.** -/
theorem exists_error_iff (hs : s.beats? = some r) (hkind : ∀ a ∈ as, a.kind = k)
    (hlength : 2 ≤ as.length) :
    (∃ e, s.ofAmounts k as = .error e) ↔ ∃ a ∈ as, ¬a.IsOrderable := by
  constructor
  · rintro ⟨e, he⟩
    by_contra hall
    simp only [not_exists, not_and, not_not] at hall
    have hne : as ≠ [] := fun h => by simp [h] at hlength
    obtain ⟨a, ha, -⟩ := ofAmounts_isEarliest (k := k) hs hne fun a ha => ⟨hkind a ha, hall a ha⟩
    exact absurd (he.symm.trans ha) (by simp)
  · rintro ⟨a, ha, hnot⟩
    obtain ⟨x, y, ys, rfl⟩ : ∃ x y ys, as = x :: y :: ys := by
      match as, hlength with
      | x :: y :: ys, _ => exact ⟨x, y, ys, rfl⟩
    cases hbest : s.ofAmounts k (x :: y :: ys) with
    | error e => exact ⟨e, rfl⟩
    | ok b =>
      rw [ofAmounts_cons hs] at hbest
      have hall := Ranking.comparable_of_best (P := IsOrderable)
        (fun _ _ _ h => isOrderable_of_relate h) hbest
      exact absurd (hall a ha) hnot

/-- **All that could be found are equal.** -/
theorem equal_of_perm (hs : s.beats? = some r) (has : AreOrderable k as) (h : IsEarliest r as a)
    (h' : IsEarliest r as' a') (hperm : as'.Perm as) : a'.equal a = .ok true := by
  obtain ⟨hkind, ha⟩ := has a h.mem
  obtain ⟨hkind', ha'⟩ := has a' (hperm.mem_iff.mp h'.mem)
  have heq : a'.kind = a.kind := hkind'.trans hkind.symm
  have hbeaten := h.unbeaten a' (hperm.mem_iff.mp h'.mem)
  have hbeaten' := h'.unbeaten a (hperm.mem_iff.mpr h.mem)
  refine equal_of_place_eq ha' ha heq ?_
  obtain ⟨-, rfl⟩ | ⟨-, rfl⟩ := beats?_eq_some.mp hs
  · exact le_antisymm (place_le_of_not_less ha ha' heq.symm hbeaten')
      (place_le_of_not_less ha' ha heq hbeaten)
  · exact le_antisymm (place_le_of_not_greater ha' ha heq hbeaten)
      (place_le_of_not_greater ha ha' heq.symm hbeaten')

/-- All measures lie between the least and the greatest one. -/
theorem exists_extremes (hne : as ≠ []) (has : AreOrderable k as) :
    ∃ low ∈ as, ∃ high ∈ as,
      least.ofAmounts k as = .ok low ∧ greatest.ofAmounts k as = .ok high ∧
        ∀ a ∈ as, low.place ≤ a.place ∧ a.place ≤ high.place := by
  obtain ⟨low, hlow, hfirst⟩ := ofAmounts_isEarliest (s := .least) rfl hne has
  obtain ⟨high, hhigh, hlast⟩ := ofAmounts_isEarliest (s := .greatest) rfl hne has
  obtain ⟨hklow, hplaceLow⟩ := has low hfirst.mem
  obtain ⟨hkhigh, hplaceHigh⟩ := has high hlast.mem
  refine ⟨low, hfirst.mem, high, hlast.mem, hlow, hhigh, fun a ha => ?_⟩
  obtain ⟨hk, hplace⟩ := has a ha
  constructor
  · exact place_le_of_not_less hplace hplaceLow (hk.trans hklow.symm) (hfirst.unbeaten a ha)
  · exact place_le_of_not_greater hplace hplaceHigh (hk.trans hkhigh.symm) (hlast.unbeaten a ha)

/-! ## Operations -/

section operations

variable {os os' : List Operation}

/-- What is promised of the least or the greatest of the measures of operations. -/
structure FindsEarliest (s : Statistic) (r : Relation) (k : MeasureKind) (os : List Operation) :
    Prop where
  empty : os = [] → s.ofOperations k os = .ok (Amount.zero k)
  /-- A single measure is not compared with any, and may be a not-a-number. -/
  single : ∀ o, os = [o] → s.ofOperations k os = .ok (o.measure k)
  fails_iff : 2 ≤ os.length →
    ((∃ e, s.ofOperations k os = .error e) ↔ ∃ o ∈ os, ¬(o.measure k).IsOrderable)
  earliest : os ≠ [] → (∀ o ∈ os, (o.measure k).IsOrderable) →
    ∃ a, s.ofOperations k os = .ok a ∧ IsEarliest r (os.map fun o => o.measure k) a
  /-- In another order of the operations, what is found is equal. -/
  perm : os ≠ [] → (∀ o ∈ os, (o.measure k).IsOrderable) → ∀ os', os'.Perm os →
    ∃ a a', s.ofOperations k os = .ok a ∧ s.ofOperations k os' = .ok a' ∧ a'.equal a = .ok true

theorem areOrderable_measures (hkind : ∀ o ∈ os, (o.measure k).kind = k)
    (hos : ∀ o ∈ os, (o.measure k).IsOrderable) : AreOrderable k (os.map fun o => o.measure k) :=
  List.forall_mem_map.mpr fun o ho => ⟨hkind o ho, hos o ho⟩

theorem findsEarliest_of_beats? (hs : s.beats? = some r)
    (hkind : ∀ o ∈ os, (o.measure k).kind = k) : FindsEarliest s r k os := by
  have find {os : List Operation} (hkind : ∀ o ∈ os, (o.measure k).kind = k) (hne : os ≠ [])
      (hos : ∀ o ∈ os, (o.measure k).IsOrderable) :
      ∃ a, s.ofOperations k os = .ok a ∧ IsEarliest r (os.map fun o => o.measure k) a :=
    ofAmounts_isEarliest hs (by simpa using hne) (areOrderable_measures hkind hos)
  constructor
  case empty =>
    rintro rfl
    cases s <;> rfl
  case single =>
    rintro o rfl
    exact ofAmounts_cons hs _ _
  case fails_iff =>
    intro hlength
    rw [ofOperations, exists_error_iff hs (List.forall_mem_map.mpr hkind) (by simpa using hlength)]
    simp only [List.mem_map, exists_exists_and_eq_and]
  case earliest => exact find hkind
  case perm =>
    intro hne hos os' hperm
    have hne' : os' ≠ [] := fun h => hne (List.nil_perm.mp (h ▸ hperm))
    obtain ⟨a, ha, hfirst⟩ := find hkind hne hos
    obtain ⟨a', ha', hfirst'⟩ := find (fun o ho => hkind o (hperm.mem_iff.mp ho)) hne'
      fun o ho => hos o (hperm.mem_iff.mp ho)
    exact ⟨a, a', ha, ha', equal_of_perm hs (areOrderable_measures hkind hos) hfirst hfirst'
      (hperm.map _)⟩

/--
**The least and the greatest measure are the first that none beats.**

For measures of one kind, in whatever units. Every measure lies between the least and the greatest
one, as measures are compared.
-/
theorem extremes_of_operations (hkind : ∀ o ∈ os, (o.measure k).kind = k) :
    (∀ s r, beats? s = some r → FindsEarliest s r k os) ∧
      (os ≠ [] → (∀ o ∈ os, (o.measure k).IsOrderable) →
        ∃ low high, ofOperations .least k os = .ok low ∧ ofOperations .greatest k os = .ok high ∧
          ∀ o ∈ os, low.relate .lessEqual (o.measure k) = .ok true ∧
            (o.measure k).relate .lessEqual high = .ok true) := by
  constructor
  · intro s r hs
    exact findsEarliest_of_beats? hs hkind
  · intro hne hos
    have has := areOrderable_measures hkind hos
    obtain ⟨low, hmemLow, high, hmemHigh, hlow, hhigh, hbetween⟩ :=
      exists_extremes (by simpa using hne) has
    refine ⟨low, high, hlow, hhigh, fun o ho => ?_⟩
    have ho' := List.mem_map_of_mem (f := fun o => o.measure k) ho
    obtain ⟨hk, ha⟩ := has _ ho'
    obtain ⟨hle, hge⟩ := hbetween _ ho'
    constructor
    · have hkindLow := (has low hmemLow).1.trans hk.symm
      rw [relate_lessEqual_eq (has low hmemLow).2 ha hkindLow, decide_eq_true hle]
    · have hkindHigh := hk.trans (has high hmemHigh).1.symm
      rw [relate_lessEqual_eq ha (has high hmemHigh).2 hkindHigh, decide_eq_true hge]

/-- Operations of which two took a second, which one of them says in milliseconds. -/
def sampleTies : List Operation :=
  [{ time := ⟨2, .second⟩ }, { time := ⟨.finite false 10 2, .millisecond⟩ },
    { time := ⟨1, .second⟩ }, { time := ⟨.infinite false, .minute⟩ }]

/-- The first second is found, whichever that is. A number and a not-a-number have no greatest. -/
theorem extremes_of_operations_seconds :
    IsEarliest .less (sampleTies.map fun o => o.measure .duration)
        ⟨.finite false 10 2, .millisecond⟩ ∧
      ofOperations .least .duration sampleTies.reverse = .ok ⟨1, .second⟩ ∧
      Amount.equal ⟨1, .second⟩ ⟨.finite false 10 2, .millisecond⟩ = .ok true ∧
      ∃ e, ofOperations .greatest .duration [{ time := ⟨1, .second⟩ },
        { time := ⟨.nan false false 0, .second⟩ }] = .error e := by
  have hkind : ∀ o ∈ sampleTies, (o.measure .duration).kind = .duration := by decide
  have hkind' : ∀ o ∈ ([{ time := ⟨1, .second⟩ }, { time := ⟨.nan false false 0, .second⟩ }] :
      List Operation), (o.measure .duration).kind = .duration := by decide
  obtain ⟨hseek, -⟩ := extremes_of_operations hkind
  obtain ⟨hfail, -⟩ := extremes_of_operations hkind'
  have hfind := hseek .least .less rfl
  obtain ⟨a, ha, hfirst⟩ := hfind.earliest (by simp [sampleTies]) (by decide +kernel)
  obtain ⟨b, b', hb, hb', hequal⟩ := hfind.perm (by simp [sampleTies]) (by decide +kernel)
    sampleTies.reverse (List.reverse_perm _)
  have hleast : ofOperations .least .duration sampleTies =
      .ok ⟨.finite false 10 2, .millisecond⟩ := by decide +kernel
  have hleast' : ofOperations .least .duration sampleTies.reverse = .ok ⟨1, .second⟩ := by
    decide +kernel
  obtain rfl := Except.ok.inj (ha.symm.trans hleast)
  obtain rfl := Except.ok.inj (hb.symm.trans hleast)
  obtain rfl := Except.ok.inj (hb'.symm.trans hleast')
  exact ⟨hfirst, hleast', hequal,
    ((hfail .greatest .greater rfl).fails_iff (by simp)).mpr (by decide +kernel)⟩

end operations

end Statistic

end PerfLedger
