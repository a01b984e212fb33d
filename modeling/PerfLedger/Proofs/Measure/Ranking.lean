import Mathlib.Order.Lattice
import PerfLedger.Measure.Ranking
import PerfLedger.Proofs.Fallible

/-!
# The best member

Where members are compared by their ranks, the best one is the first of those of least rank
(`best_firstLeast`): a member that is worse than a later one is forgotten, and a later member that
is not better is passed over. Every member takes part in some comparison, so that one of two or more
is found only if all of them can be compared (`comparable_of_best`).
-/

namespace PerfLedger.Ranking

variable {α β ε : Type} {beats : α → α → Except ε Bool}

/-- The first of the members of least rank: those before it are of greater rank. -/
def FirstLeast [LinearOrder β] (rank : α → β) (xs : List α) (x : α) : Prop :=
  ∃ before after, xs = before ++ x :: after ∧ (∀ a ∈ before, rank x < rank a) ∧
    ∀ a ∈ after, rank x ≤ rank a

section least

variable [LinearOrder β] {rank : α → β} {x y b : α} {xs : List α}

theorem FirstLeast.mem (h : FirstLeast rank xs x) : x ∈ xs := by
  obtain ⟨before, after, rfl, -, -⟩ := h
  exact List.mem_append_right _ List.mem_cons_self

theorem FirstLeast.le (h : FirstLeast rank xs x) {a : α} (ha : a ∈ xs) : rank x ≤ rank a := by
  obtain ⟨before, after, rfl, hbefore, hafter⟩ := h
  rcases List.mem_append.mp ha with ha | ha
  · exact (hbefore a ha).le
  · rcases List.mem_cons.mp ha with rfl | ha
    · exact le_rfl
    · exact hafter a ha

/-- A first member that is worse than the best one is forgotten. -/
theorem FirstLeast.cons (h : FirstLeast rank xs b) (hx : rank b < rank x) :
    FirstLeast rank (x :: xs) b := by
  obtain ⟨before, after, rfl, hbefore, hafter⟩ := h
  exact ⟨x :: before, after, rfl, List.forall_mem_cons.mpr ⟨hx, hbefore⟩, hafter⟩

/-- A second member that is not better than the first one is passed over. -/
theorem FirstLeast.cons_cons (h : FirstLeast rank (x :: xs) b) (hy : rank x ≤ rank y) :
    FirstLeast rank (x :: y :: xs) b := by
  obtain ⟨before, after, hsplit, hbefore, hafter⟩ := h
  cases before with
  | nil =>
    obtain ⟨rfl, rfl⟩ := List.cons.inj hsplit
    exact ⟨[], y :: xs, rfl, hbefore, List.forall_mem_cons.mpr ⟨hy, hafter⟩⟩
  | cons a before =>
    obtain ⟨rfl, rfl⟩ := List.cons.inj hsplit
    obtain ⟨hx, hbefore⟩ := List.forall_mem_cons.mp hbefore
    refine ⟨x :: y :: before, after, rfl, ?_, hafter⟩
    exact List.forall_mem_cons.mpr ⟨hx, List.forall_mem_cons.mpr ⟨hx.trans_le hy, hbefore⟩⟩

/-- **The best member is the first of those of least rank.** -/
theorem best_firstLeast (hbeats : ∀ a ∈ x :: xs, ∀ b ∈ x :: xs,
    beats a b = .ok (decide (rank a < rank b))) :
    ∃ b, best beats x xs = .ok b ∧ FirstLeast rank (x :: xs) b := by
  induction xs generalizing x with
  | nil => exact ⟨x, rfl, [], [], rfl, by simp, by simp⟩
  | cons y ys ih =>
    have hx : x ∈ x :: y :: ys := List.mem_cons_self
    have hy : y ∈ x :: y :: ys := List.mem_cons_of_mem _ List.mem_cons_self
    have hys {a : α} (ha : a ∈ ys) : a ∈ x :: y :: ys :=
      List.mem_cons_of_mem _ (List.mem_cons_of_mem _ ha)
    rw [best, hbeats y hy x hx]
    by_cases hlt : rank y < rank x
    · obtain ⟨b, hb, hfirst⟩ := ih (x := y) fun a ha b hb =>
        hbeats a (List.mem_cons_of_mem _ ha) b (List.mem_cons_of_mem _ hb)
      refine ⟨b, ?_, hfirst.cons ((hfirst.le List.mem_cons_self).trans_lt hlt)⟩
      rw [decide_eq_true hlt]
      exact hb
    · have hmem {a : α} (ha : a ∈ x :: ys) : a ∈ x :: y :: ys :=
        (List.mem_cons.mp ha).elim (fun h => h ▸ hx) hys
      obtain ⟨b, hb, hfirst⟩ := ih fun a ha b hb => hbeats a (hmem ha) b (hmem hb)
      refine ⟨b, ?_, hfirst.cons_cons (not_lt.mp hlt)⟩
      rw [decide_eq_false hlt]
      exact hb

end least

/-- **Every member takes part in some comparison.** -/
theorem comparable_of_best {P : α → Prop} (hbeats : ∀ a b t, beats a b = .ok t → P a ∧ P b)
    {x y b : α} {ys : List α} (h : best beats x (y :: ys) = .ok b) : ∀ a ∈ x :: y :: ys, P a := by
  induction ys generalizing x y with
  | nil =>
    obtain ⟨t, ht, -⟩ := bind_eq_ok.mp h
    obtain ⟨hy, hx⟩ := hbeats _ _ _ ht
    simp [hx, hy]
  | cons z zs ih =>
    obtain ⟨t, ht, hrest⟩ := bind_eq_ok.mp h
    obtain ⟨hy, hx⟩ := hbeats _ _ _ ht
    have hzs := ih hrest
    rw [List.forall_mem_cons] at hzs ⊢
    exact ⟨hx, List.forall_mem_cons.mpr ⟨hy, hzs.2⟩⟩

end PerfLedger.Ranking
