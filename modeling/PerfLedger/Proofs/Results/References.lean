import PerfLedger.Proofs.Results.Baselines
import PerfLedger.Results.Draft

/-!
# References of a draft

The lists that a draft refers to stand apart (`Draft.IsApart`): no two are in one place, and none is
where there was something before the draft was made. So what is added through one reference is not
seen through another, and what a step does to a draft it does to the results (`IsApart.run`). A
reference that was given for a label is given for it again, and for no other label
(`IsApart.baseline_eq_iff`).
-/

namespace PerfLedger

/-! ## Entries -/

namespace Results

variable {l : String} {b : Baseline} {es : List (String × Baseline)}

theorem putEntry_of_not_mem (h : l ∉ es.map (·.1)) : putEntry l b es = es ++ [(l, b)] := by
  induction es with
  | nil => rfl
  | cons x xs ih =>
    rw [List.map_cons, List.mem_cons, not_or] at h
    rw [putEntry, if_neg (Ne.symm h.1), ih h.2, List.cons_append]

theorem putEntry_of_mem (hnodup : (es.map (·.1)).Nodup) (h : l ∈ es.map (·.1)) :
    putEntry l b es = es.map fun e => (e.1, if e.1 = l then b else e.2) := by
  induction es with
  | nil => exact absurd h List.not_mem_nil
  | cons x xs ih =>
    rw [List.map_cons, List.nodup_cons] at hnodup
    rw [putEntry, List.map_cons]
    split
    · next hx =>
      -- No other entry has the label.
      have hrest : xs.map (fun e => (e.1, if e.1 = l then b else e.2)) = xs := by
        refine (List.map_congr_left fun e he => ?_).trans (List.map_id' xs)
        rw [if_neg fun hc => hnodup.1 (List.mem_map.mpr ⟨e, he, hc.trans hx.symm⟩)]
      rw [hrest, hx]
    · next hx =>
      rw [List.map_cons, List.mem_cons] at h
      rw [ih hnodup.2 (h.resolve_left (Ne.symm hx))]

/-- Adding operations under a label that is there changes one entry. -/
theorem appendTo_of_mem {r : Results} (hnodup : (r.baselines.map (·.1)).Nodup)
    (hl : l ∈ r.baselines.map (·.1)) (os : List Operation) :
    r.appendTo l os = { r with
      baselines := r.baselines.map fun e =>
        (e.1, if e.1 = l then { e.2 with operations := e.2.operations ++ os } else e.2) } := by
  obtain ⟨e, he, rfl⟩ := List.mem_map.mp hl
  have hold : r.baseline e.1 = e.2 := by
    rw [baseline, (baseline?_eq_some hnodup).mpr he, Option.getD_some]
  rw [appendTo, setBaseline, putEntry_of_mem hnodup hl, hold]
  congr 1
  refine List.map_congr_left fun x hx => ?_
  by_cases hxe : x.1 = e.1
  · obtain rfl := List.inj_on_of_nodup_map hnodup hx he hxe
    rfl
  · rw [if_neg hxe, if_neg hxe]

theorem putEntry_putEntry (l : String) (b b' : Baseline) (es : List (String × Baseline)) :
    putEntry l b (putEntry l b' es) = putEntry l b es := by
  induction es with
  | nil => simp [putEntry]
  | cons x xs ih =>
    by_cases hx : x.1 = l
    · rw [putEntry, if_pos hx, putEntry, if_pos rfl, putEntry, if_pos hx]
    · rw [putEntry, if_neg hx, putEntry, if_neg hx, putEntry, if_neg hx, ih]

/-- Asking for a baseline first changes nothing of what is added to it. -/
theorem appendTo_withBaseline (r : Results) (l : String) (os : List Operation) :
    (r.withBaseline l).appendTo l os = r.appendTo l os := by
  rw [withBaseline]
  cases hb : r.baseline? l with
  | some b => rfl
  | none =>
    have hl := baseline?_eq_none.mp hb
    have hfind : (r.baselines.find? fun e => e.1 == l) = none := Option.map_eq_none_iff.mp hb
    have hnew : (r.setBaseline l { version := .text l }).baseline l = r.baseline l := by
      simp [baseline, baseline?, setBaseline, putEntry_of_not_mem hl, List.find?_append, hfind]
    rw [appendTo, appendTo, hnew, setBaseline, setBaseline, setBaseline, putEntry_putEntry]

/-- The results after a step. -/
def step (r : Results) : Draft.Step → Results
  | .mention l => r.withBaseline l
  | .append l o => r.appendTo l [o]
  | .current o => r.appendCurrent [o]

end Results

/-! ## Memory -/

namespace Memory

variable {m m' : Memory} {l l' : ListRef} {b : BaselineRef}

/-- The list of a baseline. -/
def listOf? (m : Memory) (b : BaselineRef) : Option ListRef :=
  m.cells[b.place]?.map (·.operations)

/-- A memory with all that another one holds, in the same places. -/
structure Extends (m m' : Memory) : Prop where
  lists : m.lists <+: m'.lists
  cells : m.cells <+: m'.cells

theorem Extends.trans {m'' : Memory} (h : m.Extends m') (h' : m'.Extends m'') : m.Extends m'' :=
  ⟨h.lists.trans h'.lists, h.cells.trans h'.cells⟩

theorem Extends.operations (h : m.Extends m') (hl : l.place < m.lists.length) :
    m'.operations l = m.operations l := by
  obtain ⟨xs, hxs⟩ := h.lists
  rw [Memory.operations, Memory.operations, ← hxs, List.getElem?_append_left hl]

theorem Extends.listOf? (h : m.Extends m') (hb : m.listOf? b = some l) :
    m'.listOf? b = some l := by
  obtain ⟨xs, hxs⟩ := h.cells
  obtain ⟨c, hc, rfl⟩ := Option.map_eq_some_iff.mp hb
  have hlt := (List.getElem?_eq_some_iff.mp hc).1
  rw [Memory.listOf?, ← hxs, List.getElem?_append_left hlt, hc]
  rfl

/-- A baseline is seen through its cell and its list. -/
theorem baseline_congr {n : Memory} (hcell : n.cells[b.place]? = m.cells[b.place]?)
    (hlist : ∀ l, m.listOf? b = some l → n.operations l = m.operations l) :
    n.baseline b = m.baseline b := by
  rw [Memory.baseline, Memory.baseline, hcell]
  cases hc : m.cells[b.place]? with
  | none => rfl
  | some c =>
    have := hlist c.operations (by rw [Memory.listOf?, hc]; rfl)
    simp only [this]

theorem Extends.baseline (h : m.Extends m') (hb : m.listOf? b = some l)
    (hl : l.place < m.lists.length) : m'.baseline b = m.baseline b := by
  obtain ⟨xs, hxs⟩ := h.cells
  obtain ⟨c, hc, -⟩ := Option.map_eq_some_iff.mp hb
  refine baseline_congr ?_ fun l' hl' => ?_
  · rw [← hxs, List.getElem?_append_left (List.getElem?_eq_some_iff.mp hc).1]
  · obtain rfl : l = l' := Option.some.inj (hb.symm.trans hl')
    exact h.operations hl

theorem extends_addBaseline (m : Memory) (b : Baseline) : m.Extends (m.addBaseline b).1 :=
  ⟨List.prefix_append _ _, List.prefix_append _ _⟩

theorem listOf?_addBaseline (m : Memory) (b : Baseline) :
    (m.addBaseline b).1.listOf? (m.addBaseline b).2 = some ⟨m.lists.length⟩ := by
  simp [Memory.listOf?, addBaseline, addList]

theorem baseline_addBaseline (m : Memory) (b : Baseline) :
    (m.addBaseline b).1.baseline (m.addBaseline b).2 = b := by
  simp [Memory.baseline, addBaseline, addList, Memory.operations]

theorem operations_extend_self (h : l.place < m.lists.length) (os : List Operation) :
    (m.extend l os).operations l = m.operations l ++ os := by
  simp [Memory.operations, extend, h]

theorem operations_extend_ne (h : l ≠ l') (os : List Operation) :
    (m.extend l os).operations l' = m.operations l' := by
  have hne : l.place ≠ l'.place := fun hc => h (congrArg ListRef.mk hc)
  simp [Memory.operations, extend, hne]

/-- What is added to a list is not seen in the baselines of other lists. -/
theorem baseline_extend_ne (h : m.listOf? b ≠ some l) (os : List Operation) :
    (m.extend l os).baseline b = m.baseline b := by
  refine baseline_congr rfl fun l' hl' => operations_extend_ne ?_ os
  rintro rfl
  exact h hl'

theorem baseline_extend_self (h : m.listOf? b = some l) (hl : l.place < m.lists.length)
    (os : List Operation) : (m.extend l os).baseline b
      = { m.baseline b with operations := (m.baseline b).operations ++ os } := by
  obtain ⟨c, hc, rfl⟩ := Option.map_eq_some_iff.mp h
  have hcell : (m.extend c.operations os).cells[b.place]? = some c := hc
  simp only [Memory.baseline, hcell, hc, operations_extend_self hl]

theorem extendBaseline_eq (h : m.listOf? b = some l) (os : List Operation) :
    m.extendBaseline b os = m.extend l os := by
  obtain ⟨c, hc, rfl⟩ := Option.map_eq_some_iff.mp h
  simp only [extendBaseline, hc]

/-- What is added to a list behind others is not seen in those. -/
theorem Extends.extend (h : m.Extends m') (hl : m.lists.length ≤ l.place) (os : List Operation) :
    m.Extends (m'.extend l os) := by
  refine ⟨?_, h.cells⟩
  obtain ⟨xs, hxs⟩ := h.lists
  obtain ⟨k, hk⟩ := Nat.exists_eq_add_of_le hl
  rw [Memory.extend, ← hxs, hk]
  exact ⟨_, (List.modifyTailIdx_add _ k m.lists xs).symm⟩

end Memory

/-! ## Drafts -/

namespace Draft

variable {m : Memory} {d : Draft} {l : String} {ref : BaselineRef} {os : List Operation}

/-- The lists that a draft refers to. -/
def lists (d : Draft) : List (Option ListRef) :=
  some d.current :: d.baselines.map fun e => d.memory.listOf? e.2

/-- The lists of a draft stand apart from each other, and from all that a memory holds. -/
structure IsApart (m : Memory) (d : Draft) : Prop where
  labels : (d.baselines.map (·.1)).Nodup
  lists : d.lists.Nodup
  made : ∀ l ∈ d.lists, ∃ r, l = some r ∧ m.lists.length ≤ r.place ∧
    r.place < d.memory.lists.length
  ext : m.Extends d.memory

theorem IsApart.listOf (h : d.IsApart m) {e : String × BaselineRef} (he : e ∈ d.baselines) :
    ∃ r, d.memory.listOf? e.2 = some r ∧ m.lists.length ≤ r.place ∧
      r.place < d.memory.lists.length :=
  h.made _ (List.mem_cons_of_mem _ (List.mem_map.mpr ⟨e, he, rfl⟩))

theorem IsApart.current (h : d.IsApart m) :
    m.lists.length ≤ d.current.place ∧ d.current.place < d.memory.lists.length := by
  obtain ⟨r, hr, hplace⟩ := h.made _ List.mem_cons_self
  rwa [← Option.some.inj hr] at hplace

theorem IsApart.listOf_ne_current (h : d.IsApart m) {e : String × BaselineRef}
    (he : e ∈ d.baselines) : d.memory.listOf? e.2 ≠ some d.current := by
  intro hc
  exact (List.nodup_cons.mp h.lists).1 (List.mem_map.mpr ⟨e, he, hc⟩)

/-- Entries are told apart by their lists. -/
theorem IsApart.eq_of_listOf (h : d.IsApart m) {e e' : String × BaselineRef}
    (he : e ∈ d.baselines) (he' : e' ∈ d.baselines)
    (heq : d.memory.listOf? e.2 = d.memory.listOf? e'.2) : e = e' :=
  List.inj_on_of_nodup_map (List.nodup_cons.mp h.lists).2 he he' heq

/-! ## Making a draft -/

theorem addBaseline_baselines (d : Draft) (l : String) (b : Baseline) :
    (d.addBaseline l b).1.baselines = d.baselines ++ [(l, (d.addBaseline l b).2)] :=
  rfl

/-- A baseline that is made for a new label stands apart. -/
theorem IsApart.addBaseline (h : d.IsApart m) (hl : l ∉ d.baselines.map (·.1)) (b : Baseline) :
    (d.addBaseline l b).1.IsApart m := by
  have hext := d.memory.extends_addBaseline b
  have hnew := d.memory.listOf?_addBaseline b
  have hlength : (d.addBaseline l b).1.memory.lists.length = d.memory.lists.length + 1 :=
    List.length_append
  have hold : d.baselines.map (fun e => (d.addBaseline l b).1.memory.listOf? e.2)
      = d.baselines.map fun e => d.memory.listOf? e.2 := by
    refine List.map_congr_left fun e he => ?_
    obtain ⟨r, hr, -⟩ := h.listOf he
    rw [hr]
    exact hext.listOf? hr
  have hlists : (d.addBaseline l b).1.lists = d.lists ++ [some ⟨d.memory.lists.length⟩] := by
    rw [Draft.lists, addBaseline_baselines, List.map_append, hold]
    exact congrArg (fun x => some d.current :: (_ ++ [x])) hnew
  refine ⟨?_, ?_, ?_, h.ext.trans hext⟩
  · rw [addBaseline_baselines, List.map_append]
    exact List.concat_eq_append ▸ h.labels.concat hl
  · rw [hlists]
    refine List.concat_eq_append ▸ h.lists.concat fun hx => ?_
    obtain ⟨r, hr, -, hlt⟩ := h.made _ hx
    rw [← Option.some.inj hr] at hlt
    exact absurd hlt (Nat.lt_irrefl _)
  · rw [hlists]
    intro x hx
    rcases List.mem_append.mp hx with hx | hx
    · obtain ⟨r, hr, hge, hlt⟩ := h.made x hx
      exact ⟨r, hr, hge, by omega⟩
    · exact ⟨_, List.mem_singleton.mp hx, h.ext.lists.length_le, by
        show d.memory.lists.length < _
        omega⟩

theorem IsApart.results_addBaseline (h : d.IsApart m) (l : String) (b : Baseline) :
    (d.addBaseline l b).1.results
      = { d.results with baselines := d.results.baselines ++ [(l, b)] } := by
  have hext := d.memory.extends_addBaseline b
  have hcurrent := hext.operations h.current.2
  have hold : d.baselines.map (fun e => (e.1, (d.memory.addBaseline b).1.baseline e.2))
      = d.baselines.map fun e => (e.1, d.memory.baseline e.2) := by
    refine List.map_congr_left fun e he => ?_
    obtain ⟨r, hr, -, hlt⟩ := h.listOf he
    rw [hext.baseline hr hlt]
  have hnew := d.memory.baseline_addBaseline b
  simp only [Draft.results, Draft.addBaseline, hcurrent, List.map_append, hold, List.map_cons, hnew,
    List.map_nil]

/-! ## Adding operations -/

/-- What is added to one of its lists leaves the lists of a draft where they are. -/
theorem IsApart.extend (h : d.IsApart m) {r : ListRef} (hr : some r ∈ d.lists)
    (os : List Operation) : IsApart m { d with memory := d.memory.extend r os } := by
  obtain ⟨r', hr', hge, -⟩ := h.made _ hr
  obtain rfl : r = r' := Option.some.inj hr'
  have hlength : (d.memory.extend r os).lists.length = d.memory.lists.length :=
    List.length_modify ..
  refine ⟨h.labels, h.lists, fun x hx => ?_, h.ext.extend hge os⟩
  obtain ⟨s, hs, hge, hlt⟩ := h.made x hx
  exact ⟨s, hs, hge, by rwa [hlength]⟩

theorem IsApart.results_appendCurrent (h : d.IsApart m) (os : List Operation) :
    (d.appendCurrent os).results = d.results.appendCurrent os := by
  have hcurrent := Memory.operations_extend_self h.current.2 os
  have hbaselines : d.baselines.map (fun e => (e.1, (d.memory.extend d.current os).baseline e.2))
      = d.baselines.map fun e => (e.1, d.memory.baseline e.2) := by
    refine List.map_congr_left fun e he => ?_
    rw [Memory.baseline_extend_ne (h.listOf_ne_current he)]
  simp only [Draft.appendCurrent, Draft.results, hcurrent, hbaselines, Results.appendCurrent]

/-- What is added to the baseline of a label is added under this label in the results. -/
theorem IsApart.extendBaseline (h : d.IsApart m) (hl : (l, ref) ∈ d.baselines)
    (os : List Operation) :
    IsApart m { d with memory := d.memory.extendBaseline ref os } ∧
      results { d with memory := d.memory.extendBaseline ref os } = d.results.appendTo l os := by
  obtain ⟨r, hr, -, hlt⟩ := h.listOf hl
  have hmem : some r ∈ d.lists := List.mem_cons_of_mem _ (List.mem_map.mpr ⟨_, hl, hr⟩)
  rw [Memory.extendBaseline_eq hr]
  refine ⟨h.extend hmem os, ?_⟩
  have hne : r ≠ d.current := by
    rintro rfl
    exact h.listOf_ne_current hl hr
  have hcurrent := Memory.operations_extend_ne (m := d.memory) hne os
  have hlabels : d.results.baselines.map (·.1) = d.baselines.map (·.1) :=
    List.map_map
  rw [Results.appendTo_of_mem (hlabels ▸ h.labels)
    (hlabels ▸ List.mem_map.mpr ⟨_, hl, rfl⟩ : l ∈ d.results.baselines.map (·.1))]
  simp only [results, hcurrent, List.map_map]
  congr 1
  refine List.map_congr_left fun e he => ?_
  simp only [Function.comp_apply]
  by_cases hel : e.1 = l
  · obtain rfl : e = (l, ref) := List.inj_on_of_nodup_map h.labels he hl hel
    rw [if_pos rfl, Memory.baseline_extend_self hr hlt]
  · rw [if_neg hel, Memory.baseline_extend_ne]
    intro hc
    exact hel (congrArg Prod.fst (h.eq_of_listOf he hl (hc.trans hr.symm)))

/-! ## Steps -/

theorem IsApart.baseline?_eq_some (h : d.IsApart m) :
    d.baseline? l = some ref ↔ (l, ref) ∈ d.baselines :=
  Results.find?_label_eq_some h.labels

/-- Asking for a baseline makes one if there is none, and leaves the others where they are. -/
theorem IsApart.baseline (h : d.IsApart m) (l : String) :
    (d.baseline l).1.IsApart m ∧ (d.baseline l).1.results = d.results.withBaseline l ∧
      d.baselines <+: (d.baseline l).1.baselines ∧
      (l, (d.baseline l).2) ∈ (d.baseline l).1.baselines := by
  have hlabels : d.results.baselines.map (·.1) = d.baselines.map (·.1) :=
    List.map_map
  rw [Draft.baseline, Results.withBaseline]
  cases hb : d.baseline? l with
  | some ref =>
    have hmem := h.baseline?_eq_some.mp hb
    rw [(Results.baseline?_eq_some (hlabels ▸ h.labels)).mpr (List.mem_map.mpr ⟨_, hmem, rfl⟩)]
    exact ⟨h, rfl, List.prefix_rfl, hmem⟩
  | none =>
    have hl : l ∉ d.baselines.map (·.1) := Results.find?_label_eq_none.mp hb
    rw [Results.baseline?_eq_none.mpr (hlabels ▸ hl)]
    refine ⟨h.addBaseline hl _, ?_, List.prefix_append _ _, ?_⟩
    · rw [h.results_addBaseline, Results.setBaseline, Results.putEntry_of_not_mem (hlabels ▸ hl)]
    · exact List.mem_append_right _ (List.mem_singleton.mpr rfl)

theorem IsApart.appendTo (h : d.IsApart m) (l : String) (os : List Operation) :
    (d.appendTo l os).IsApart m ∧ (d.appendTo l os).results = d.results.appendTo l os ∧
      d.baselines <+: (d.appendTo l os).baselines := by
  obtain ⟨hapart, hresults, hkeeps, hmem⟩ := h.baseline l
  obtain ⟨hapart, happend⟩ := hapart.extendBaseline hmem os
  rw [hresults, Results.appendTo_withBaseline] at happend
  exact ⟨hapart, happend, hkeeps⟩

/-- **What a step does to a draft, it does to the results.** Entries stay where they are. -/
theorem IsApart.step (h : d.IsApart m) (s : Step) :
    (d.step s).IsApart m ∧ (d.step s).results = d.results.step s ∧
      d.baselines <+: (d.step s).baselines := by
  cases s with
  | mention l =>
    obtain ⟨hapart, hresults, hkeeps, -⟩ := h.baseline l
    exact ⟨hapart, hresults, hkeeps⟩
  | append l o => exact h.appendTo l [o]
  | current o =>
    exact ⟨h.extend List.mem_cons_self [o], h.results_appendCurrent [o], List.prefix_rfl⟩

/-- **What steps do to a draft, they do to the results.** -/
theorem IsApart.run (h : d.IsApart m) (steps : List Step) :
    (d.run steps).IsApart m ∧ (d.run steps).results = steps.foldl Results.step d.results ∧
      d.baselines <+: (d.run steps).baselines := by
  induction steps generalizing d with
  | nil => exact ⟨h, rfl, List.prefix_rfl⟩
  | cons s steps ih =>
    obtain ⟨hapart, hresults, hkeeps⟩ := h.step s
    obtain ⟨hapart', hresults', hkeeps'⟩ := ih hapart
    refine ⟨hapart', ?_, hkeeps.trans hkeeps'⟩
    rw [List.foldl_cons, ← hresults]
    exact hresults'

/-- **A label has one reference, and no other label has it,** whatever was done in between. -/
theorem IsApart.baseline_eq_iff (h : d.IsApart m) (l l' : String) (steps : List Step) :
    (d.baseline l).2 = (((d.baseline l).1.run steps).baseline l').2 ↔ l = l' := by
  obtain ⟨hapart, -, -, hmem⟩ := h.baseline l
  obtain ⟨hrun, -, hkeeps⟩ := hapart.run steps
  obtain ⟨hlast, -, hkeeps', hmem'⟩ := hrun.baseline l'
  have hmem := hkeeps'.subset (hkeeps.subset hmem)
  constructor
  · intro href
    exact congrArg Prod.fst (hlast.eq_of_listOf hmem hmem' (congrArg _ href))
  · intro hl
    exact (Prod.mk.inj (List.inj_on_of_nodup_map hlast.labels hmem hmem' hl)).2

/-! ## New drafts -/

theorem IsApart.addBaselines (h : d.IsApart m) (es : List (String × Baseline))
    (hes : (d.baselines.map (·.1) ++ es.map (·.1)).Nodup) :
    (es.foldl (fun d e => (d.addBaseline e.1 e.2).1) d).IsApart m ∧
      (es.foldl (fun d e => (d.addBaseline e.1 e.2).1) d).results
        = { d.results with baselines := d.results.baselines ++ es } := by
  induction es generalizing d with
  | nil => exact ⟨h, by rw [List.append_nil]; rfl⟩
  | cons e es ih =>
    have hl : e.1 ∉ d.baselines.map (·.1) := fun hc =>
      (List.nodup_append.mp hes).2.2 e.1 hc e.1 List.mem_cons_self rfl
    have hes' : ((d.addBaseline e.1 e.2).1.baselines.map (·.1) ++ es.map (·.1)).Nodup := by
      rw [addBaseline_baselines, List.map_append, List.append_assoc]
      exact hes
    obtain ⟨hapart, hresults⟩ := ih (h.addBaseline hl e.2) hes'
    refine ⟨hapart, hresults.trans ?_⟩
    rw [h.results_addBaseline]
    simp only [List.append_assoc, List.cons_append, List.nil_append]

theorem isApart_ofCurrent (m : Memory) (r : Results) : (ofCurrent m r).IsApart m := by
  refine ⟨List.nodup_nil, List.nodup_singleton _, ?_, List.prefix_append _ _, List.prefix_rfl⟩
  intro x hx
  refine ⟨_, List.mem_singleton.mp hx, Nat.le_refl _, ?_⟩
  simp [ofCurrent, Memory.addList]

theorem results_ofCurrent (m : Memory) (r : Results) :
    (ofCurrent m r).results = { r with baselines := [] } := by
  simp [results, ofCurrent, Memory.addList, Memory.operations]

/-- **A draft of results amounts to them,** and stands apart from what was in memory before. -/
theorem ofResults_spec (m : Memory) {r : Results} (hr : (r.baselines.map (·.1)).Nodup) :
    (ofResults m r).IsApart m ∧ (ofResults m r).results = r := by
  obtain ⟨hapart, hresults⟩ := (isApart_ofCurrent m r).addBaselines r.baselines hr
  rw [results_ofCurrent] at hresults
  exact ⟨hapart, hresults⟩

end Draft

end PerfLedger
