import PerfLedger.Store.History

/-!
# Sorted texts and baselines

Texts are sorted by code point, each once (`pairwise_sortTexts`, `mem_sortTexts`). Baselines are
sorted by their labels, so that different labels come out in strictly ascending order
(`pairwise_sortBaselines`).
-/

namespace PerfLedger

/-! ## Repeats -/

section repeats

variable {α : Type} [BEq α] [LawfulBEq α]

omit [LawfulBEq α] in
theorem eraseRepsBy_loop_eq (a : α) (as acc : List α) :
    List.eraseRepsBy.loop (· == ·) a as acc
      = acc.reverse ++ List.eraseRepsBy.loop (· == ·) a as [] := by
  induction as generalizing a acc with
  | nil => simp [List.eraseRepsBy.loop]
  | cons b bs ih =>
    unfold List.eraseRepsBy.loop
    split
    · exact ih a acc
    · rw [ih b (a :: acc), ih b [a]]
      simp

theorem eraseReps_cons_self (a : α) (as : List α) :
    (a :: a :: as).eraseReps = (a :: as).eraseReps := by
  simp [List.eraseReps, List.eraseRepsBy, List.eraseRepsBy.loop]

theorem eraseReps_cons_ne {a b : α} (h : a ≠ b) (as : List α) :
    (a :: b :: as).eraseReps = a :: (b :: as).eraseReps := by
  simp only [List.eraseReps, List.eraseRepsBy, List.eraseRepsBy.loop, beq_false_of_ne h]
  rw [eraseRepsBy_loop_eq b as [a]]
  rfl

theorem mem_eraseReps {a : α} {as : List α} : a ∈ as.eraseReps ↔ a ∈ as := by
  match as with
  | [] => exact Iff.rfl
  | [b] => exact Iff.rfl
  | b :: c :: cs =>
    have ih : a ∈ (c :: cs).eraseReps ↔ a ∈ c :: cs := mem_eraseReps
    by_cases h : b = c
    · subst h
      rw [eraseReps_cons_self, ih, List.mem_cons]
      simp
    · rw [eraseReps_cons_ne h, List.mem_cons, List.mem_cons, ih]

/-- Repeats stand next to each other in an ascending list, so that none is left. -/
theorem pairwise_eraseReps {r s : α → α → Prop} {as : List α} (h : as.Pairwise r)
    (hrs : ∀ a b, r a b → a ≠ b → s a b) (hanti : ∀ a b, r a b → r b a → a = b) :
    as.eraseReps.Pairwise s := by
  match as with
  | [] => exact .nil
  | [b] => exact .cons (by simp) .nil
  | b :: c :: cs =>
    obtain ⟨hb, hcs⟩ := List.pairwise_cons.mp h
    have ih := pairwise_eraseReps hcs hrs hanti
    by_cases hbc : b = c
    · subst hbc
      rw [eraseReps_cons_self]
      exact ih
    · rw [eraseReps_cons_ne hbc]
      refine List.pairwise_cons.mpr ⟨?_, ih⟩
      intro x hx
      have hx := mem_eraseReps.mp hx
      refine hrs b x (hb x hx) ?_
      rintro rfl
      rcases List.mem_cons.mp hx with rfl | hx
      · exact hbc rfl
      · exact hbc (hanti b c (hb c List.mem_cons_self) ((List.pairwise_cons.mp hcs).1 b hx))

end repeats

/-! ## Texts -/

theorem not_lt_trans (a b c : String) (h : (!decide (b < a)) = true)
    (h' : (!decide (c < b)) = true) : (!decide (c < a)) = true := by
  simp only [Bool.not_eq_true', decide_eq_false_iff_not, String.not_lt] at h h' ⊢
  exact String.le_trans h h'

theorem not_lt_total (a b : String) : (!decide (b < a) || !decide (a < b)) = true := by
  simp only [Bool.or_eq_true, Bool.not_eq_true', decide_eq_false_iff_not, String.not_lt]
  exact String.le_total a b

theorem lt_of_not_lt_of_ne {a b : String} (h : ¬b < a) (hne : a ≠ b) : a < b := by
  rcases Decidable.em (a < b) with hlt | hlt
  · exact hlt
  · exact absurd (String.le_antisymm (String.not_lt.mp h) (String.not_lt.mp hlt)) hne

/-- **Sorted texts are strictly ascending.** -/
theorem pairwise_sortTexts (ss : List String) : (sortTexts ss).Pairwise (· < ·) := by
  have h : (ss.mergeSort fun s t => !decide (t < s)).Pairwise (· ≤ ·) :=
    (List.pairwise_mergeSort not_lt_trans not_lt_total ss).imp fun hle => by
      rw [Bool.not_eq_true', decide_eq_false_iff_not] at hle
      exact String.not_lt.mp hle
  exact pairwise_eraseReps h (fun a b hab hne => lt_of_not_lt_of_ne (String.not_lt.mpr hab) hne)
    fun a b hab hba => String.le_antisymm hab hba

theorem mem_sortTexts {s : String} {ss : List String} : s ∈ sortTexts ss ↔ s ∈ ss := by
  rw [sortTexts, mem_eraseReps, List.mem_mergeSort]

/-! ## Baselines -/

theorem mem_sortBaselines {e : String × Baseline} {bs : List (String × Baseline)} :
    e ∈ Database.sortBaselines bs ↔ e ∈ bs := by
  rw [Database.sortBaselines, List.mem_mergeSort]

/-- Baselines of different labels are sorted in strictly ascending order. -/
theorem pairwise_sortBaselines {bs : List (String × Baseline)} (h : (bs.map (·.1)).Nodup) :
    ((Database.sortBaselines bs).map (·.1)).Pairwise (· < ·) := by
  have htotal (a b : String × Baseline) :
      (!decide (b.1 < a.1) || !decide (a.1 < b.1)) = true := not_lt_total a.1 b.1
  have hsorted : (Database.sortBaselines bs).Pairwise fun a b => (!decide (b.1 < a.1)) = true :=
    List.pairwise_mergeSort (fun a b c => not_lt_trans a.1 b.1 c.1) htotal bs
  have hnodup : ((Database.sortBaselines bs).map (·.1)).Nodup :=
    ((List.mergeSort_perm bs _).map (·.1)).nodup_iff.mpr h
  rw [List.nodup_iff_pairwise_ne, List.pairwise_map] at hnodup
  rw [List.pairwise_map]
  refine (hsorted.and hnodup).imp ?_
  rintro a b ⟨hle, hne⟩
  exact lt_of_not_lt_of_ne (by simpa using hle) hne

end PerfLedger
