import PerfLedger.Proofs.Measure.Base
import PerfLedger.Proofs.Decimal.Same
import PerfLedger.Proofs.Results.Baselines
import PerfLedger.Proofs.Store.Fetch
import PerfLedger.Proofs.Store.Log
import PerfLedger.Proofs.Store.Sorting

/-!
# Results, read back

What is read back of results is a normal form of them (`Results.Restores`): the measures of an
operation are in base units and the same numbers as before, failures are forgotten, and operations
that were measured against one version stand under the label of that version, whatever the entries
were called in which they had been recorded. Labels without operations are gone; the others are in
ascending order.

`resultsOf_restores` says so of each execution of a log.
-/

namespace PerfLedger

/-! ## Normal forms -/

/-- An operation as it is read back: the same numbers in base units, and no failure. -/
structure Operation.Restores (o p : Operation) : Prop where
  time : ∃ t, o.time.inBaseUnits .duration = .ok t ∧ p.time.value.Same t ∧
    p.time.unit = MeasureUnit.base .duration
  memory : ∃ m, o.memory.inBaseUnits .dataAmount = .ok m ∧ p.memory.value.Same m ∧
    p.memory.unit = MeasureUnit.base .dataAmount
  failure : p.failure = none

/-- The label of a version that is a text. -/
def Value.label? : Value → Option String
  | .text s => some s
  | _ => none

/-- The operations that were measured against a version, over all entries with that version. -/
def Results.measuredAgainst (r : Results) (l : String) : List Operation :=
  r.baselines.flatMap fun e => if e.2.version.label? = some l then e.2.operations else []

/-- Results as they are read back. -/
structure Results.Restores (r q : Results) : Prop where
  name : q.name = r.name
  version : q.version = r.version
  time : Time.ensureUtc r.time = .ok q.time
  current : List.Forall₂ Operation.Restores r.current q.current
  ascending : (q.baselines.map (·.1)).Pairwise (· < ·)
  mem_labels : ∀ l, l ∈ q.baselines.map (·.1) ↔
    ∃ e ∈ r.baselines, e.2.version = .text l ∧ e.2.operations ≠ []
  baselines : ∀ e ∈ q.baselines, e.2.version = .text e.1 ∧
    List.Forall₂ Operation.Restores (r.measuredAgainst e.1) e.2.operations

/-- Results with texts for their name and versions, a time that a clock can show and that lies in
year 1000 or later in UTC, and measures that can be written as numerals. -/
structure Results.IsPlain (r : Results) : Prop where
  name : ∃ s, r.name = .text s
  version : ∃ s, r.version = .text s
  labels : ∀ e ∈ r.baselines, ∃ s, e.2.version = .text s
  wall : r.time.wall.IsValid
  year : ∀ u, Time.ensureUtc r.time = .ok u → 1000 ≤ u.wall.year
  measures : ∀ e ∈ r.labelled, e.2.time.IsRepresentable ∧ e.2.memory.IsRepresentable

/-! ## Operations -/

namespace OperationRow

variable {id : Int} {e : Value × Operation} {row : OperationRow}

/-- A row is fetched as its label and its measures. -/
theorem Holds.exists_fetch (h : row.Holds id e) :
    ∃ x, row.fetch = .ok x ∧
      (e.1 = .null ∨ (∃ s, e.1 = .text s) → x.version.toOptionalText = e.1.label?) ∧
      (∃ t, e.2.time.inBaseUnits .duration = .ok t ∧ x.time = .text t.fixed) ∧
      ∃ m, e.2.memory.inBaseUnits .dataAmount = .ok m ∧ x.memory = .text m.fixed := by
  obtain ⟨-, ⟨c, hc, hv⟩, ⟨t, htime, ht⟩, m, hmem, hm⟩ := h
  obtain ⟨v, hfetch⟩ := Cell.exists_fetch_of_ofValue hc "version"
  rw [← hv] at hfetch
  refine ⟨⟨v, .text t.fixed, .text m.fixed⟩, OperationRow.fetch_eq_ok.mpr ⟨hfetch, ?_, ?_⟩, ?_,
    ⟨t, htime, rfl⟩, m, hmem, rfl⟩
  · rw [ht]; rfl
  · rw [hm]; rfl
  · rintro (hl | ⟨s, hl⟩)
    · rw [hl] at hc ⊢
      rw [hv, ← Except.ok.inj hc] at hfetch
      rw [← Except.ok.inj hfetch]
      rfl
    · rw [hl] at hc ⊢
      rw [hv, ← Except.ok.inj hc] at hfetch
      rw [← Except.ok.inj hfetch]
      rfl

/-- What is fetched of a row is the operation, as it is read back. -/
theorem Holds.toOperation (h : row.Holds id e) (ht : e.2.time.IsRepresentable)
    (hm : e.2.memory.IsRepresentable) :
    ∃ x p, row.fetch = .ok x ∧ x.toOperation = .ok p ∧ e.2.Restores p ∧
      (e.1 = .null ∨ (∃ s, e.1 = .text s) → x.version.toOptionalText = e.1.label?) := by
  obtain ⟨x, hfetch, hlabel, ⟨t, htime, hxt⟩, m, hmem, hxm⟩ := h.exists_fetch
  have hpt : x.time.toDecimalField "executionTimeMs" = .ok t.positional := by
    rw [hxt]
    exact mapError_eq_ok.mpr (Decimal.parse_fixed (Amount.inBaseUnits_isRepresentable ht htime))
  have hpm : x.memory.toDecimalField "heapUsageBytes" = .ok m.positional := by
    rw [hxm]
    exact mapError_eq_ok.mpr (Decimal.parse_fixed (Amount.inBaseUnits_isRepresentable hm hmem))
  refine ⟨x, ⟨⟨t.positional, MeasureUnit.base .duration⟩,
    ⟨m.positional, MeasureUnit.base .dataAmount⟩, none⟩, hfetch, ?_,
    ⟨⟨t, htime, Decimal.positional_same t, rfl⟩, ⟨m, hmem, Decimal.positional_same m, rfl⟩, rfl⟩,
    hlabel⟩
  simp only [FetchedOperation.toOperation, hpt, hpm, bind, Except.bind, pure, Except.pure]

/-- What is fetched of a row is added under its label, as it is read back. -/
theorem Holds.addTo (h : row.Holds id e) (hl : e.1 = .null ∨ ∃ s, e.1 = .text s)
    (ht : e.2.time.IsRepresentable) (hm : e.2.memory.IsRepresentable) :
    ∃ x p, row.fetch = .ok x ∧ e.2.Restores p ∧
      ∀ r, FetchedOperation.addTo r x = .ok (r.add (e.1.label?, p)) := by
  obtain ⟨x, p, hfetch, hoperation, hrestores, hlabel⟩ := h.toOperation ht hm
  refine ⟨x, p, hfetch, hrestores, fun r => ?_⟩
  simp only [FetchedOperation.addTo, hoperation, bind, Except.bind, pure, Except.pure, hlabel hl,
    Results.add]
  cases e.1.label? with
  | none => rfl
  | some l => rfl

/-- The rows of operations are fetched and added under their labels, each as it is read back. -/
theorem foldlM_addTo {es : List (Value × Operation)} {rows : List OperationRow}
    (h : List.Forall₂ (Holds id) es rows) (hl : ∀ e ∈ es, e.1 = .null ∨ ∃ s, e.1 = .text s)
    (hm : ∀ e ∈ es, e.2.time.IsRepresentable ∧ e.2.memory.IsRepresentable) :
    ∃ xs ps, rows.mapM OperationRow.fetch = .ok xs ∧
      List.Forall₂ (fun (e : Value × Operation) (p : Option String × Operation) =>
        p.1 = e.1.label? ∧ e.2.Restores p.2) es ps ∧
      ∀ r, xs.foldlM FetchedOperation.addTo r = .ok (ps.foldl Results.add r) := by
  induction h with
  | nil => exact ⟨[], [], rfl, .nil, fun r => rfl⟩
  | @cons e row es rows hrow _ ih =>
    obtain ⟨xs, ps, hxs, hps, hfold⟩ := ih (fun x hx => hl x (List.mem_cons_of_mem _ hx))
      fun x hx => hm x (List.mem_cons_of_mem _ hx)
    obtain ⟨ht, hm⟩ := hm e List.mem_cons_self
    obtain ⟨x, p, hx, hrest, hadd⟩ := hrow.addTo (hl e List.mem_cons_self) ht hm
    refine ⟨x :: xs, (e.1.label?, p) :: ps, ?_, .cons ⟨rfl, hrest⟩ hps, ?_⟩
    · exact mapM_eq_ok.mpr (.cons hx (mapM_eq_ok.mp hxs))
    · intro r
      rw [List.foldlM_cons, hadd]
      exact hfold _

end OperationRow

/-! ## Labels -/

namespace Results

variable {r : Results}

theorem IsPlain.label (h : r.IsPlain) {e : Value × Operation} (he : e ∈ r.labelled) :
    e.1 = .null ∨ ∃ s, e.1 = .text s := by
  rcases List.mem_append.mp he with he | he
  · obtain ⟨o, -, rfl⟩ := List.mem_map.mp he
    exact .inl rfl
  · obtain ⟨b, hb, he⟩ := List.mem_flatMap.mp he
    obtain ⟨o, -, rfl⟩ := List.mem_map.mp he
    exact .inr (h.labels b hb)

/-- The operations of results under a label, or those of the build under test. -/
def labelledUnder (r : Results) (l : Option String) : List Operation :=
  (r.labelled.filter fun e => e.1.label? == l).map (·.2)

theorem labelledUnder_none (h : r.IsPlain) : r.labelledUnder none = r.current := by
  have hcurrent : (r.current.map fun o => (Value.null, o)).filter (fun e => e.1.label? == none)
      = r.current.map fun o => (Value.null, o) :=
    List.filter_eq_self.mpr fun e he => by
      obtain ⟨o, -, rfl⟩ := List.mem_map.mp he
      rfl
  have hbaselines : (r.baselines.flatMap fun e => e.2.operations.map fun o =>
      (e.2.version, o)).filter (fun e => e.1.label? == none) = [] :=
    List.filter_eq_nil_iff.mpr fun e he => by
      obtain ⟨b, hb, he⟩ := List.mem_flatMap.mp he
      obtain ⟨o, -, rfl⟩ := List.mem_map.mp he
      obtain ⟨s, hs⟩ := h.labels b hb
      simp [hs, Value.label?]
  rw [labelledUnder, labelled, List.filter_append, hcurrent, hbaselines, List.append_nil,
    List.map_map]
  exact List.map_id' r.current

theorem labelledUnder_some (r : Results) (l : String) :
    r.labelledUnder (some l) = r.measuredAgainst l := by
  have hcurrent : (r.current.map fun o => (Value.null, o)).filter (fun e => e.1.label? == some l)
      = [] :=
    List.filter_eq_nil_iff.mpr fun e he => by
      obtain ⟨o, -, rfl⟩ := List.mem_map.mp he
      simp [Value.label?]
  rw [labelledUnder, labelled, List.filter_append, hcurrent, List.nil_append, List.filter_flatMap,
    List.map_flatMap, measuredAgainst]
  congr 1
  funext e
  split
  · next h =>
    have hall : (e.2.operations.map fun o => (e.2.version, o)).filter
        (fun e => e.1.label? == some l) = e.2.operations.map fun o => (e.2.version, o) :=
      List.filter_eq_self.mpr fun x hx => by
        obtain ⟨o, -, rfl⟩ := List.mem_map.mp hx
        simpa using h
    rw [hall, List.map_map]
    exact List.map_id' _
  · next h =>
    have hnone : (e.2.operations.map fun o => (e.2.version, o)).filter
        (fun e => e.1.label? == some l) = [] :=
      List.filter_eq_nil_iff.mpr fun x hx => by
        obtain ⟨o, -, rfl⟩ := List.mem_map.mp hx
        simpa using h
    rw [hnone, List.map_nil]

/-- What is read back under a label is what was recorded under it. -/
theorem under_restores {es : List (Value × Operation)} {ps : List (Option String × Operation)}
    (h : List.Forall₂ (fun (e : Value × Operation) (p : Option String × Operation) =>
      p.1 = e.1.label? ∧ e.2.Restores p.2) es ps) (l : Option String) :
    List.Forall₂ Operation.Restores ((es.filter fun e => e.1.label? == l).map (·.2))
      (under l ps) := by
  induction h with
  | nil => exact .nil
  | @cons e p es ps hep _ ih =>
    obtain ⟨hlabel, hrest⟩ := hep
    unfold under at ih ⊢
    by_cases hl : e.1.label? = l
    · rw [List.filter_cons_of_pos (by simpa using hl),
        List.filter_cons_of_pos (by simpa [hlabel] using hl)]
      exact .cons hrest ih
    · rw [List.filter_cons_of_neg (by simpa using hl),
        List.filter_cons_of_neg (by simpa [hlabel] using hl)]
      exact ih

theorem label?_eq_some {v : Value} {l : String} : v.label? = some l ↔ v = .text l := by
  cases v <;> simp [Value.label?]

theorem measuredAgainst_ne_nil {l : String} :
    r.measuredAgainst l ≠ [] ↔ ∃ e ∈ r.baselines, e.2.version = .text l ∧ e.2.operations ≠ [] := by
  simp only [measuredAgainst, ne_eq, List.flatMap_eq_nil_iff, not_forall, exists_prop]
  constructor
  · rintro ⟨e, he, hne⟩
    by_cases hv : e.2.version.label? = some l
    · rw [if_pos hv] at hne
      exact ⟨e, he, label?_eq_some.mp hv, hne⟩
    · rw [if_neg hv] at hne
      exact absurd rfl hne
  · rintro ⟨e, he, hv, hne⟩
    exact ⟨e, he, by rwa [if_pos (label?_eq_some.mpr hv)]⟩

end Results

/-! ## Executions -/

/-- A moment that has a stamp has a UTC form. -/
theorem Time.exists_ensureUtc {m : Moment} {t : String} (h : Time.stamp m = .ok t) :
    ∃ u, Time.ensureUtc m = .ok u := by
  obtain ⟨w, z⟩ := m
  simp only [Time.ensureUtc_eq_ok, Moment.toUtc?]
  cases z with
  | unknown => exact ⟨_, rfl⟩
  | silent => exact ⟨_, rfl⟩
  | offset s =>
    cases hb : w.before? s with
    | none => simp [Time.stamp, hb] at h
    | some u => exact ⟨⟨u, .offset 0⟩, by simp [hb]⟩

namespace ExecutionRow

variable {r : Results} {row : ExecutionRow}

/-- The stamp in the row of an execution shows the UTC time, and denotes it. -/
theorem Holds.exists_utc (h : row.Holds r) (hwall : r.time.wall.IsValid)
    (hyear : ∀ u, Time.ensureUtc r.time = .ok u → 1000 ≤ u.wall.year) :
    ∃ u, Time.ensureUtc r.time = .ok u ∧ u.wall.IsValid ∧ u.instant = u.wall.micros ∧
      1000 ≤ u.wall.year ∧ row.time = .text (String.ofList (Time.stampChars u.wall)) ∧
      (Value.text (String.ofList (Time.stampChars u.wall))).toMomentField = .ok u := by
  obtain ⟨t, ht, hrow⟩ := h.time
  obtain ⟨u, hu⟩ := Time.exists_ensureUtc ht
  obtain ⟨heq, hv, hi, hs⟩ := Time.exists_stamp hwall hu
  rw [ht] at hs
  rw [Except.ok.inj hs] at hrow
  have hyear := hyear u hu
  refine ⟨u, hu, hv, hi, hyear, hrow, ?_⟩
  show Time.parseStamp _ = _
  rw [Time.parseStamp_stampChars hv hyear, ← heq]

theorem Holds.version_eq (h : row.Holds r) {v : String} (hv : r.version = .text v) :
    row.version = .text v := by
  obtain ⟨c, hc, hrow⟩ := h.version
  rw [hv] at hc
  rw [hrow, ← Except.ok.inj hc]
  rfl

theorem Holds.name_eq (h : row.Holds r) {n : String} (hn : r.name = .text n) :
    row.name = .text n := by
  obtain ⟨c, hc, hrow⟩ := h.name
  rw [hn] at hc
  rw [hrow, ← Except.ok.inj hc]
  rfl

end ExecutionRow

/-- **Results are read back in their normal form.** -/
theorem Database.resultsOf_restores {db : Database} {es : List LoggedExecution}
    (h : db.Entries es) {e : LoggedExecution} (he : e ∈ es) (hr : e.results.IsPlain) :
    ∃ x q, e.row.fetch = .ok x ∧ db.resultsOf {} e.results.name 0 x = .ok q ∧
      e.results.Restores q := by
  obtain ⟨v, hv⟩ := hr.version
  obtain ⟨u, hu, -, -, -, htime, hmoment⟩ := e.row_holds.exists_utc hr.wall hr.year
  obtain ⟨xs, ps, hxs, hps, hfold⟩ :=
    OperationRow.foldlM_addTo e.rows_hold (fun x hx => hr.label hx) hr.measures
  have hfetch : e.row.fetch
      = .ok ⟨e.row.id, .text (String.ofList (Time.stampChars u.wall)), .text v⟩ := by
    rw [ExecutionRow.fetch_eq_ok, htime, e.row_holds.version_eq hv]
    exact ⟨rfl, rfl, rfl⟩
  have hrows : db.fetchOperations {} 0 e.row.id = .ok xs := by
    rw [fetchOperations_eq rfl, operationsOf_entry h he, hxs]
  have hversion : (Value.text v).toTextField "targetVersion" = .ok v := rfl
  obtain ⟨q, hq⟩ : ∃ q : Results, q = ps.foldl Results.add
      { name := e.results.name, version := .text v, time := u } := ⟨_, rfl⟩
  have hg : Results.Gathered ps q := hq ▸ Results.gathered_foldl rfl rfl ps
  obtain ⟨hname, hver, htime⟩ := hq ▸ Results.foldl_add_frame
    { name := e.results.name, version := .text v, time := u } ps
  have hunder (l : Option String) :
      List.Forall₂ Operation.Restores (e.results.labelledUnder l) (Results.under l ps) :=
    Results.under_restores hps l
  refine ⟨_, { q with baselines := sortBaselines q.baselines }, hfetch, ?_, ?_⟩
  · simp only [resultsOf, hversion, hmoment, hrows, hfold, ← hq, Except.mapError, bind, Except.bind]
    rfl
  · refine ⟨hname, hver.trans hv.symm, ?_, ?_, pairwise_sortBaselines hg.nodup, ?_, ?_⟩
    · exact hu.trans (congrArg _ htime.symm)
    · show List.Forall₂ _ _ q.current
      rw [hg.current, ← Results.labelledUnder_none hr]
      exact hunder none
    · intro l
      have hiff : l ∈ (sortBaselines q.baselines).map (·.1) ↔ l ∈ q.baselines.map (·.1) := by
        simp only [List.mem_map, mem_sortBaselines]
      rw [hiff, hg.mem_labels, ← Results.mem_under_ne_nil, ← Results.measuredAgainst_ne_nil,
        ← Results.labelledUnder_some]
      have hlen := (hunder (some l)).length_eq
      rw [ne_eq, ne_eq, ← List.length_eq_zero_iff, ← List.length_eq_zero_iff, hlen]
    · -- Sorting the baselines changes none of them.
      intro b hb
      obtain ⟨hbv, hbo⟩ := hg.baselines b (mem_sortBaselines.mp hb)
      refine ⟨hbv, ?_⟩
      rw [hbo, ← Results.labelledUnder_some]
      exact hunder (some b.1)

end PerfLedger
