import PerfLedger.Proofs.Fallible
import PerfLedger.Proofs.Results.References

/-!
# Results that are put together

Results that were put together in steps have one entry for each label that a step mentions, in the
order in which the labels are first mentioned, and it holds the operations that were added under its
label (`Results.foldl_step`). So does a new draft, of which no step changes anything but what it
names (`Draft.assembles_run`).

A step at the end mentions a label that is there or a new one, and adds an operation or none. It is
enough to look at a mention: who adds an operation under a label might have mentioned it before.
-/

namespace PerfLedger

/-! ## Labels and operations of steps -/

namespace Draft

/-- The label that a step mentions. -/
def Step.label? : Step → Option String
  | .mention l => some l
  | .append l _ => some l
  | .current _ => none

/-- The operation that a step adds, under a label or to the build under test. -/
def Step.entry? : Step → Option (Option String × Operation)
  | .mention _ => none
  | .append l o => some (some l, o)
  | .current o => some (none, o)

/-- The labels that steps mention, in the order in which they are first mentioned. -/
def mentioned (steps : List Step) : List String :=
  (steps.filterMap Step.label?).eraseDups

/-- The operations that steps add under a label, or to the build under test. -/
def added (l : Option String) (steps : List Step) : List Operation :=
  Results.under l (steps.filterMap Step.entry?)

/-- The baselines that steps make. -/
def assembled (steps : List Step) : List (String × Baseline) :=
  (mentioned steps).map fun l => (l, { version := .text l, operations := added (some l) steps })

variable {l : String} {s : Step} {steps : List Step}

theorem mem_mentioned : l ∈ mentioned steps ↔ ∃ s ∈ steps, s.label? = some l := by
  rw [mentioned, List.mem_eraseDups, List.mem_filterMap]

theorem mentioned_append_none (steps : List Step) (h : s.label? = none) :
    mentioned (steps ++ [s]) = mentioned steps := by
  simp [mentioned, h]

theorem mentioned_append_some (steps : List Step) (h : s.label? = some l) :
    mentioned (steps ++ [s])
      = if l ∈ mentioned steps then mentioned steps else mentioned steps ++ [l] := by
  have hfilter : (steps ++ [s]).filterMap Step.label? = steps.filterMap Step.label? ++ [l] := by
    simp [h]
  rw [mentioned, hfilter, List.eraseDups_append, ← mentioned]
  split
  · next hl =>
    have hl : [l].removeAll (steps.filterMap Step.label?) = [] :=
      List.filter_eq_nil_iff.mpr (by simpa using List.mem_eraseDups.mp hl)
    rw [hl, List.eraseDups_nil, List.append_nil]
  · next hl =>
    have hl : [l].removeAll (steps.filterMap Step.label?) = [l] :=
      List.filter_eq_self.mpr (by simpa using mt List.mem_eraseDups.mpr hl)
    rw [hl]
    rfl

theorem nodup_mentioned (steps : List Step) : (mentioned steps).Nodup := by
  induction steps using List.reverseRecOn with
  | nil => exact List.nodup_nil
  | append_singleton steps s ih =>
    cases hs : s.label? with
    | none => rwa [mentioned_append_none steps hs]
    | some l =>
      rw [mentioned_append_some steps hs]
      split
      · exact ih
      · next hl => exact List.concat_eq_append ▸ ih.concat hl

theorem added_append (l : Option String) (steps : List Step) (s : Step) :
    added l (steps ++ [s]) = added l steps ++ added l [s] := by
  rw [added, List.filterMap_append, Results.under_append]
  rfl

theorem added_append_mention (l : Option String) (l' : String) (steps : List Step) :
    added l (steps ++ [.mention l']) = added l steps := by
  rw [added_append]
  exact List.append_nil _

theorem added_append_to (l l' : String) (o : Operation) :
    added (some l) [.append l' o] = if l' = l then [o] else [] := by
  have := Results.under_singleton (some l) (some l', o)
  simpa [added, Step.entry?] using this

/-- Operations are added under labels that are mentioned. -/
theorem added_of_not_mem_mentioned (h : l ∉ mentioned steps) : added (some l) steps = [] := by
  by_contra hne
  obtain ⟨e, he, hl⟩ := Results.mem_under_ne_nil.mp hne
  obtain ⟨s, hs, hse⟩ := List.mem_filterMap.mp he
  refine h (mem_mentioned.mpr ⟨s, hs, ?_⟩)
  cases s with
  | mention _ => exact absurd hse (by simp [Step.entry?])
  | append l' o =>
    obtain rfl := Option.some.inj hse
    exact hl
  | current o =>
    obtain rfl := Option.some.inj hse
    exact absurd hl (by simp)

theorem labels_assembled (steps : List Step) :
    (assembled steps).map (·.1) = mentioned steps := by
  rw [assembled, List.map_map]
  exact List.map_id' _

/-- A mention makes a baseline without operations, if there is none of that label. -/
theorem assembled_append_mention (l : String) (steps : List Step) :
    assembled (steps ++ [.mention l]) = if l ∈ mentioned steps then assembled steps
      else assembled steps ++ [(l, { version := .text l })] := by
  rw [assembled, mentioned_append_some steps rfl]
  simp only [added_append_mention]
  split
  · rfl
  · next hl =>
    rw [List.map_append, List.map_singleton, added_of_not_mem_mentioned hl]
    rfl

/-- What is added under a label that was mentioned goes to the baseline of this label. -/
theorem assembled_append_to (l : String) (o : Operation) (steps : List Step) :
    assembled (steps ++ [.append l o]) = (assembled (steps ++ [.mention l])).map fun e =>
      (e.1, if e.1 = l then { e.2 with operations := e.2.operations ++ [o] } else e.2) := by
  have hlabels : mentioned (steps ++ [.append l o]) = mentioned (steps ++ [.mention l]) :=
    (mentioned_append_some steps rfl).trans (mentioned_append_some steps rfl).symm
  rw [assembled, assembled, hlabels, List.map_map]
  refine List.map_congr_left fun l' _ => ?_
  simp only [Function.comp_apply, added_append_mention, added_append _ _ (.append l o),
    added_append_to]
  by_cases hl : l = l'
  · rw [if_pos hl, if_pos hl.symm]
  · rw [if_neg hl, if_neg (Ne.symm hl), List.append_nil]

theorem assembled_append_current (o : Operation) (steps : List Step) :
    assembled (steps ++ [.current o]) = assembled steps := by
  have hadded (l : String) : added (some l) (steps ++ [.current o]) = added (some l) steps := by
    rw [added_append]
    exact List.append_nil _
  simp only [assembled, mentioned_append_none steps (s := .current o) rfl, hadded]

end Draft

/-! ## Results -/

namespace Results

open Draft

variable {l l' : String}

/-- The results with what steps add. -/
def withSteps (r : Results) (steps : List Step) : Results :=
  { r with current := added none steps, baselines := assembled steps }

theorem withBaseline_withSteps (r : Results) (l : String) (steps : List Step) :
    (r.withSteps steps).withBaseline l = r.withSteps (steps ++ [.mention l]) := by
  have hlabels : (r.withSteps steps).baselines.map (·.1) = mentioned steps :=
    labels_assembled steps
  rw [withBaseline]
  cases hb : (r.withSteps steps).baseline? l with
  | none =>
    have hl := baseline?_eq_none.mp hb
    rw [setBaseline, putEntry_of_not_mem hl]
    simp only [withSteps, added_append_mention, assembled_append_mention, if_neg (hlabels ▸ hl)]
  | some b =>
    have hl : l ∈ (r.withSteps steps).baselines.map (·.1) := by
      by_contra hl
      exact Option.some_ne_none b (hb.symm.trans (baseline?_eq_none.mpr hl))
    simp only [withSteps, added_append_mention, assembled_append_mention, if_pos (hlabels ▸ hl)]

/-- A step at the end is done last. -/
theorem step_withSteps (r : Results) (s : Step) (steps : List Step) :
    (r.withSteps steps).step s = r.withSteps (steps ++ [s]) := by
  cases s with
  | mention l => exact r.withBaseline_withSteps l steps
  | append l o =>
    have hlabels : (r.withSteps (steps ++ [.mention l])).baselines.map (·.1)
        = mentioned (steps ++ [.mention l]) := labels_assembled _
    have hl : l ∈ mentioned (steps ++ [.mention l]) := mem_mentioned.mpr ⟨.mention l, by simp, rfl⟩
    have hcurrent : added none (steps ++ [.append l o]) = added none (steps ++ [.mention l]) := by
      rw [added_append, added_append_mention]
      exact List.append_nil _
    rw [step, ← appendTo_withBaseline, withBaseline_withSteps,
      appendTo_of_mem (hlabels ▸ nodup_mentioned _) (hlabels ▸ hl)]
    simp only [withSteps, hcurrent, assembled_append_to]
  | current o =>
    have hcurrent : added none (steps ++ [.current o]) = added none steps ++ [o] := added_append ..
    simp only [step, appendCurrent, withSteps, hcurrent, assembled_append_current]

/-- **Results that were put together in steps have what the steps add.** -/
theorem foldl_step {r : Results} (hc : r.current = []) (hb : r.baselines = [])
    (steps : List Step) : steps.foldl Results.step r = r.withSteps steps := by
  -- Operations are added behind the others, so the induction is on the end of the steps.
  induction steps using List.reverseRecOn with
  | nil =>
    show r = { r with current := [], baselines := [] }
    rw [← hc, ← hb]
  | append_singleton steps s ih =>
    rw [List.foldl_append, ih]
    exact r.step_withSteps s steps

/-! ## Frames -/

theorem find?_putEntry_ne (h : l' ≠ l) (b : Baseline) (es : List (String × Baseline)) :
    (putEntry l b es).find? (fun e => e.1 == l') = es.find? fun e => e.1 == l' := by
  induction es with
  | nil => simp [putEntry, h.symm]
  | cons x xs ih =>
    rw [putEntry]
    split
    · next hx => simp [hx, h.symm]
    · next hx => rw [List.find?_cons, List.find?_cons, ih]

/-- Adding operations under a label changes nothing under another one. -/
theorem baseline?_appendTo_ne (h : l' ≠ l) (r : Results) (os : List Operation) :
    (r.appendTo l os).baseline? l' = r.baseline? l' :=
  congrArg (Option.map _) (find?_putEntry_ne h _ r.baselines)

end Results

/-! ## Drafts -/

namespace Draft

/--
A draft that was put together in steps, with references that can be used further.

It has one entry for each label that a step mentions, and each holds what was added under its label.
A reference that it gives for a label it gives for this label again, whatever is done in between,
and for no other. What is added next under a label is seen neither in the build under test nor under
another label, and what is added to the build under test is seen under no label. What was in memory
before is as it was.
-/
structure Assembles (m : Memory) (r : Results) (steps : List Step) (d : Draft) : Prop where
  results : d.results = r.withSteps steps
  nodup : (d.results.baselines.map (·.1)).Nodup
  same : ∀ (l l' : String) (others : List Step),
    (d.baseline l).2 = (((d.baseline l).1.run others).baseline l').2 ↔ l = l'
  appendTo : ∀ (l : String) (os : List Operation),
    (d.appendTo l os).results.current = d.results.current ∧
      ∀ l' ≠ l, (d.appendTo l os).results.baseline? l' = d.results.baseline? l'
  appendCurrent : ∀ os, (d.appendCurrent os).results.baselines = d.results.baselines
  memory : m.Extends d.memory

variable {m : Memory} {d : Draft} {name version : Value} {time : Moment}

/-- A new draft has no operations and no baselines yet. -/
theorem new_spec (h : new m name version time = .ok d) :
    ∃ u, Time.ensureUtc time = .ok u ∧ d.IsApart m ∧
      d.results = { name, version, time := u } := by
  obtain ⟨r, hr, rfl⟩ := map_eq_ok.mp h
  obtain ⟨u, hu, hr⟩ := bind_eq_ok.mp hr
  obtain rfl := Except.ok.inj hr
  exact ⟨u, hu, ofResults_spec m List.nodup_nil⟩

/-- **A draft that was put together in steps holds what the steps add.** -/
theorem assembles_run (h : new m name version time = .ok d) (steps : List Step) :
    (d.run steps).Assembles m d.results steps := by
  obtain ⟨u, -, hapart, hd⟩ := new_spec h
  obtain ⟨hrun, hresults, -⟩ := hapart.run steps
  rw [Results.foldl_step (by rw [hd]) (by rw [hd])] at hresults
  refine ⟨hresults, ?_, hrun.baseline_eq_iff, ?_, ?_, hrun.ext⟩
  · rw [hresults]
    exact labels_assembled steps ▸ nodup_mentioned steps
  · intro l os
    obtain ⟨-, happend, -⟩ := hrun.appendTo l os
    rw [happend]
    exact ⟨rfl, fun l' hl => Results.baseline?_appendTo_ne hl _ os⟩
  · intro os
    rw [hrun.results_appendCurrent]
    rfl

end Draft

end PerfLedger
