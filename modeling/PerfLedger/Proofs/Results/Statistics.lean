import PerfLedger.Results.Basic
import PerfLedger.Proofs.Measure.Restored

/-!
# Statistics of operations that are computed with alike

Operations that are read back have the statistics of the operations that were recorded: the folds
over them take the same turns (`ofOperations_agree`). A total is kept in the base unit, and the
extremes are found by comparisons, which answer the same on either side.

Such operations are also equal, member by member (`equalOperations_of_recovers`).
-/

namespace PerfLedger

variable {k : MeasureKind}

/-! ## Extremes -/

/-- The best of related members are related if one beats another on either side or on none. -/
theorem Ranking.best_agree {α β ε : Type} {R : α → β → Prop} {beats : α → α → Except ε Bool}
    {beats' : β → β → Except ε Bool}
    (hbeats : ∀ a b x y, R a x → R b y → beats a b = beats' x y) {a : α} {x : β} (h : R a x)
    {as : List α} {xs : List β} (hs : List.Forall₂ R as xs) :
    Agree R (best beats a as) (best beats' x xs) := by
  induction hs generalizing a x with
  | nil => exact .ok h
  | @cons b y as xs hby _ ih =>
    -- The same member wins on both sides, or the comparison fails on both.
    rw [best, best, hbeats b a y x hby h]
    cases beats' y x with
    | error e => exact .error e
    | ok turn =>
      cases turn with
      | true => exact ih hby
      | false => exact ih h

/-! ## Averages -/

namespace Statistic

theorem total_agree {s s' : Amount} (hs : s.InBase k s') {as ps : List Amount}
    (h : List.Forall₂ (Amount.Restores k) as ps) :
    Agree (Amount.InBase k) (total s as) (total s' ps) := by
  induction h generalizing s s' with
  | nil => exact .ok hs
  | cons hap _ ih => exact (hap.add hs).bind fun _ _ hsum => ih hsum

theorem averageOf_agree {as ps : List Amount} (h : List.Forall₂ (Amount.Restores k) as ps) :
    Agree (Amount.Restores k) (averageOf k as) (averageOf k ps) := by
  unfold averageOf
  cases h with
  | nil =>
    rw [if_pos rfl]
    exact .ok (Amount.inBase_zero k).restores
  | cons hap hrest =>
    rw [if_neg (List.cons_ne_nil _ _), if_neg (List.cons_ne_nil _ _),
      (List.Forall₂.cons hap hrest).length_eq]
    exact (total_agree (Amount.inBase_zero k) (.cons hap hrest)).bind fun _ _ hsum =>
      (hsum.divBy rfl).imp fun _ _ => Amount.InBase.restores

/-- **The statistics of amounts and of what is read back of them agree.** -/
theorem ofAmounts_agree (s : Statistic) {as ps : List Amount}
    (h : List.Forall₂ (Amount.Restores k) as ps) :
    Agree (Amount.Restores k) (s.ofAmounts k as) (s.ofAmounts k ps) := by
  have relate (r : Relation) (a b p q : Amount) (hp : a.Restores k p) (hq : b.Restores k q) :
      a.relate r b = p.relate r q := hp.relate_eq hq r
  cases s with
  | average => exact averageOf_agree h
  | least =>
    cases h with
    | nil => exact .ok (Amount.inBase_zero k).restores
    | cons hap hrest => exact Ranking.best_agree (relate .less) hap hrest
  | greatest =>
    cases h with
    | nil => exact .ok (Amount.inBase_zero k).restores
    | cons hap hrest => exact Ranking.best_agree (relate .greater) hap hrest

end Statistic

/-! ## Operations -/

/-- Operations without failures whose measures are computed with alike. -/
structure Operation.Recovers (o p : Operation) : Prop where
  measure (k : MeasureKind) : (o.measure k).Restores k (p.measure k)
  failure : o.failure = none
  failure' : p.failure = none

variable {o p : Operation} {os ps : List Operation}

theorem Operation.Recovers.equal (h : o.Recovers p) : p.equal o = .ok true := by
  have htime : p.time.equal o.time = .ok true := (h.measure .duration).equal
  have hmemory : p.memory.equal o.memory = .ok true := (h.measure .dataAmount).equal
  unfold Operation.equal
  rw [htime, hmemory, h.failure, h.failure']
  rfl

/-- **Operations and what is read back of them have the same statistics.** -/
theorem Statistic.ofOperations_agree (s : Statistic) (k : MeasureKind)
    (h : List.Forall₂ Operation.Recovers os ps) :
    Agree (Amount.Restores k) (s.ofOperations k os) (s.ofOperations k ps) := by
  refine s.ofAmounts_agree ?_
  rw [List.forall₂_map_left_iff, List.forall₂_map_right_iff]
  exact h.imp fun _ _ hop => hop.measure k

/-- **Operations and what is read back of them are equal.** -/
theorem Results.equalOperations_of_recovers (h : List.Forall₂ Operation.Recovers os ps) :
    equalOperations ps os = .ok true := by
  unfold equalOperations
  rw [if_pos h.length_eq.symm]
  induction h with
  | nil => rfl
  | @cons o p os ps hop _ ih =>
    rw [equalAll, hop.equal]
    exact ih

end PerfLedger
