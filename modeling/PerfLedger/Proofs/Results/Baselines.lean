import Mathlib.Data.List.Induction
import Mathlib.Data.List.Nodup
import PerfLedger.Results.Basic

/-!
# Operations under their labels

Results that are put together operation by operation hold, under each label, the operations that
were added under it, in that order; a label is there if and only if an operation was added under it
(`gathered_foldl`). No label is there twice.
-/

namespace PerfLedger.Results

/-! ## One entry -/

theorem mem_putEntry {l : String} {b : Baseline} {es : List (String × Baseline)}
    (h : (es.map (·.1)).Nodup) {e : String × Baseline} :
    e ∈ putEntry l b es ↔ e = (l, b) ∨ (e ∈ es ∧ e.1 ≠ l) := by
  induction es with
  | nil => simp [putEntry]
  | cons x xs ih =>
    rw [List.map_cons, List.nodup_cons] at h
    unfold putEntry
    split
    · next hx =>
      -- The entry is replaced, and no other has its label.
      have hne : ∀ y ∈ xs, y.1 ≠ l := by
        intro y hy hc
        exact h.1 (List.mem_map.mpr ⟨y, hy, by rw [hc, hx]⟩)
      simp only [List.mem_cons]
      constructor
      · rintro (rfl | hmem)
        · exact .inl rfl
        · exact .inr ⟨.inr hmem, hne e hmem⟩
      · rintro (rfl | ⟨rfl | hmem, hel⟩)
        · exact .inl rfl
        · exact absurd hx hel
        · exact .inr hmem
    · next hx =>
      simp only [List.mem_cons, ih h.2]
      constructor
      · rintro (rfl | rfl | ⟨hmem, hel⟩)
        · exact .inr ⟨.inl rfl, hx⟩
        · exact .inl rfl
        · exact .inr ⟨.inr hmem, hel⟩
      · rintro (rfl | ⟨rfl | hmem, hel⟩)
        · exact .inr (.inl rfl)
        · exact .inl rfl
        · exact .inr (.inr ⟨hmem, hel⟩)

theorem mem_labels_putEntry {l l' : String} {b : Baseline} {es : List (String × Baseline)} :
    l' ∈ (putEntry l b es).map (·.1) ↔ l' = l ∨ l' ∈ es.map (·.1) := by
  induction es with
  | nil => simp [putEntry]
  | cons x xs ih =>
    unfold putEntry
    split
    · next hx => simp only [List.map_cons, List.mem_cons, hx]; tauto
    · simp only [List.map_cons, List.mem_cons, ih]; tauto

theorem nodup_labels_putEntry (l : String) (b : Baseline) {es : List (String × Baseline)}
    (h : (es.map (·.1)).Nodup) : ((putEntry l b es).map (·.1)).Nodup := by
  induction es with
  | nil => simp [putEntry]
  | cons x xs ih =>
    rw [List.map_cons, List.nodup_cons] at h
    unfold putEntry
    split
    · next hx =>
      rw [List.map_cons, List.nodup_cons]
      exact ⟨hx ▸ h.1, h.2⟩
    · next hx =>
      rw [List.map_cons, List.nodup_cons]
      refine ⟨?_, ih h.2⟩
      intro hc
      rcases mem_labels_putEntry.mp hc with hc | hc
      · exact hx hc
      · exact h.1 hc

/-- What is found under a label, among entries of different labels. -/
theorem find?_label_eq_some {β : Type} {es : List (String × β)} (h : (es.map (·.1)).Nodup)
    {l : String} {b : β} :
    (es.find? fun e => e.1 == l).map (·.2) = some b ↔ (l, b) ∈ es := by
  rw [Option.map_eq_some_iff]
  constructor
  · rintro ⟨⟨l', b'⟩, hfind, rfl⟩
    obtain rfl : l' = l := by simpa using List.find?_some hfind
    exact List.mem_of_find?_eq_some hfind
  · intro hmem
    cases hfind : es.find? fun e => e.1 == l with
    | none => exact absurd (List.find?_eq_none.mp hfind _ hmem) (by simp)
    | some e =>
      obtain rfl : e.1 = l := by simpa using List.find?_some hfind
      have heq := List.inj_on_of_nodup_map h (List.mem_of_find?_eq_some hfind) hmem rfl
      exact ⟨e, rfl, by rw [heq]⟩

theorem find?_label_eq_none {β : Type} {es : List (String × β)} {l : String} :
    (es.find? fun e => e.1 == l).map (·.2) = none ↔ l ∉ es.map (·.1) := by
  rw [Option.map_eq_none_iff, List.find?_eq_none, List.mem_map]
  constructor
  · rintro h ⟨e, he, rfl⟩
    exact h e he (by simp)
  · intro h e he hc
    exact h ⟨e, he, by simpa using hc⟩

/-- The baseline of a label, among entries of different labels. -/
theorem baseline?_eq_some {r : Results} (h : (r.baselines.map (·.1)).Nodup) {l : String}
    {b : Baseline} : r.baseline? l = some b ↔ (l, b) ∈ r.baselines :=
  find?_label_eq_some h

theorem baseline?_eq_none {r : Results} {l : String} :
    r.baseline? l = none ↔ l ∉ r.baselines.map (·.1) :=
  find?_label_eq_none

/-! ## All entries -/

/-- The results with an operation added under a label, or to the build under test. -/
def add (r : Results) (e : Option String × Operation) : Results :=
  match e.1 with
  | none => r.appendCurrent [e.2]
  | some l => r.appendTo l [e.2]

/-- The operations that are added under a label, or to the build under test. -/
def under (l : Option String) (es : List (Option String × Operation)) : List Operation :=
  (es.filter fun e => e.1 == l).map (·.2)

theorem under_append (l : Option String) (es fs : List (Option String × Operation)) :
    under l (es ++ fs) = under l es ++ under l fs := by
  simp [under]

theorem under_singleton (l : Option String) (e : Option String × Operation) :
    under l [e] = if e.1 = l then [e.2] else [] := by
  by_cases h : e.1 = l
  · simp [under, h]
  · simp [under, h]

theorem mem_under_ne_nil {l : Option String} {es : List (Option String × Operation)} :
    under l es ≠ [] ↔ ∃ e ∈ es, e.1 = l := by
  simp [under, List.filter_eq_nil_iff]

/-- The results hold the given operations under their labels, and nothing else. -/
structure Gathered (es : List (Option String × Operation)) (r : Results) : Prop where
  current : r.current = under none es
  nodup : (r.baselines.map (·.1)).Nodup
  mem_labels : ∀ l, l ∈ r.baselines.map (·.1) ↔ ∃ e ∈ es, e.1 = some l
  baselines : ∀ e ∈ r.baselines, e.2.version = .text e.1 ∧ e.2.operations = under (some e.1) es

theorem Gathered.baseline_operations {es : List (Option String × Operation)} {r : Results}
    (h : Gathered es r) (l : String) :
    (r.baseline l).version = .text l ∧ (r.baseline l).operations = under (some l) es := by
  rw [baseline]
  cases hb : r.baseline? l with
  | some b => exact h.baselines _ ((baseline?_eq_some h.nodup).mp hb)
  | none =>
    refine ⟨rfl, ?_⟩
    by_contra hne
    exact baseline?_eq_none.mp hb ((h.mem_labels l).mpr (mem_under_ne_nil.mp (Ne.symm hne)))

/-- One more operation is found under its label, and under no other. -/
theorem Gathered.add {es : List (Option String × Operation)} {r : Results} (h : Gathered es r)
    (e : Option String × Operation) : Gathered (es ++ [e]) (r.add e) := by
  obtain ⟨label, o⟩ := e
  cases label with
  | none =>
    have hsome (l : String) : under (some l) (es ++ [(none, o)]) = under (some l) es := by
      rw [under_append, under_singleton, if_neg (by simp), List.append_nil]
    refine ⟨?_, h.nodup, ?_, ?_⟩
    · show r.current ++ [o] = _
      rw [under_append, under_singleton, if_pos rfl, h.current]
    · intro l
      rw [← mem_under_ne_nil, hsome, mem_under_ne_nil]
      exact h.mem_labels l
    · intro e he
      rw [hsome]
      exact h.baselines e he
  | some l =>
    obtain ⟨hversion, hops⟩ := h.baseline_operations l
    have hnone : under none (es ++ [(some l, o)]) = under none es := by
      rw [under_append, under_singleton, if_neg (by simp), List.append_nil]
    refine ⟨?_, nodup_labels_putEntry _ _ h.nodup, ?_, ?_⟩
    · rw [hnone]
      exact h.current
    · intro l'
      rw [show (r.add (some l, o)).baselines.map (·.1)
        = (putEntry l { r.baseline l with operations := (r.baseline l).operations ++ [o] }
          r.baselines).map (·.1) from rfl, mem_labels_putEntry, h.mem_labels]
      simp only [List.mem_append, List.mem_singleton]
      constructor
      · rintro (rfl | ⟨e, he, hl⟩)
        · exact ⟨_, .inr rfl, rfl⟩
        · exact ⟨e, .inl he, hl⟩
      · rintro ⟨e, he | rfl, hl⟩
        · exact .inr ⟨e, he, hl⟩
        · exact .inl (Option.some.inj hl).symm
    · intro e he
      rcases (mem_putEntry h.nodup).mp he with rfl | ⟨he, hne⟩
      · refine ⟨hversion, ?_⟩
        show (r.baseline l).operations ++ [o] = _
        rw [under_append, under_singleton, if_pos rfl, hops]
      · rw [under_append, under_singleton, if_neg (fun hc => hne (Option.some.inj hc).symm),
          List.append_nil]
        exact h.baselines e he

/-- **Operations that are added one by one are found under their labels.** -/
theorem gathered_foldl {r : Results} (hc : r.current = []) (hb : r.baselines = [])
    (es : List (Option String × Operation)) : Gathered es (es.foldl Results.add r) := by
  -- Operations are added behind the others, so the induction is on the end of the list.
  induction es using List.reverseRecOn with
  | nil => exact ⟨by simp [hc, under], by simp [hb], by simp [hb], by simp [hb]⟩
  | append_singleton es e ih =>
    rw [List.foldl_append]
    exact ih.add e

/-- Adding operations changes neither name nor version nor time. -/
theorem foldl_add_frame (r : Results) (es : List (Option String × Operation)) :
    (es.foldl Results.add r).name = r.name ∧ (es.foldl Results.add r).version = r.version ∧
      (es.foldl Results.add r).time = r.time := by
  induction es generalizing r with
  | nil => exact ⟨rfl, rfl, rfl⟩
  | cons e es ih =>
    obtain ⟨label, o⟩ := e
    cases label with
    | none => exact ih (r.add (none, o))
    | some l => exact ih (r.add (some l, o))

end PerfLedger.Results
