import PerfLedger.Proofs.Results.Assembly
import PerfLedger.Proofs.Store.Reproduction
import PerfLedger.Proofs.Store.TestTime

/-!
# From a draft to its history

A draft holds what steps added to it, list by list. A report writes the lists one behind the other,
and a history takes them apart again by their labels. As a draft has one baseline for each label,
what is found under a label in the end is what was added under it, and labels that were only
mentioned are gone (`Store.recalls_of_report`, `draft_survives`).
-/

namespace PerfLedger

open Database Draft

/-! ## Results -/

/-- Results with the operations that steps add, as they are read back: in the order of the steps,
and under the labels under which they were added. No other label is there. -/
structure Results.Recalls (steps : List Step) (q : Results) : Prop where
  current : List.Forall₂ Operation.Restores (added none steps) q.current
  nodup : (q.baselines.map (·.1)).Nodup
  mem_labels : ∀ l, l ∈ q.baselines.map (·.1) ↔ added (some l) steps ≠ []
  baselines : ∀ e ∈ q.baselines, e.2.version = .text e.1 ∧
    List.Forall₂ Operation.Restores (added (some e.1) steps) e.2.operations

namespace Results

variable {r q : Results} {steps : List Step}

theorem measuredAgainst_withSteps (r : Results) (l : String) (steps : List Step) :
    (r.withSteps steps).measuredAgainst l = added (some l) steps := by
  have hlabels : (r.withSteps steps).baselines.map (·.1) = mentioned steps :=
    labels_assembled steps
  by_cases hl : l ∈ mentioned steps
  · exact measuredAgainst_eq (hlabels ▸ nodup_mentioned steps)
      (fun e he => by
        obtain ⟨l', -, rfl⟩ := List.mem_map.mp he
        rfl)
      (List.mem_map.mpr ⟨l, hl, rfl⟩)
  · rw [added_of_not_mem_mentioned hl]
    by_contra hne
    obtain ⟨e, he, hv, -⟩ := measuredAgainst_ne_nil.mp hne
    obtain ⟨l', hl', rfl⟩ := List.mem_map.mp he
    exact hl (Value.text.inj hv ▸ hl')

/-- What is read back has the operations of the steps. -/
theorem Restores.recalls (hq : (r.withSteps steps).Restores q) : q.Recalls steps := by
  refine ⟨hq.current, hq.nodup_labels, ?_, ?_⟩
  · intro l
    rw [hq.mem_labels, ← measuredAgainst_ne_nil, measuredAgainst_withSteps]
  · intro e he
    obtain ⟨hversion, hops⟩ := hq.baselines e he
    rw [measuredAgainst_withSteps] at hops
    exact ⟨hversion, hops⟩

/-- New results with what steps add are plain, if the measures can be written. -/
theorem isPlain_withSteps {name version : String} {time u : Moment} (htime : time.wall.IsValid)
    (hu : Time.ensureUtc time = .ok u) (hyear : 1000 ≤ u.wall.year)
    (hsteps : ∀ e ∈ steps.filterMap Step.entry?,
      e.2.time.IsRepresentable ∧ e.2.memory.IsRepresentable) :
    IsPlain (withSteps { name := .text name, version := .text version, time := u } steps) := by
  have hform := Time.isUtcForm_of_ensureUtc htime hu
  have hadded {l : Option String} {o : Operation} (ho : o ∈ added l steps) :
      o.time.IsRepresentable ∧ o.memory.IsRepresentable := by
    obtain ⟨e, he, rfl⟩ := List.mem_map.mp ho
    exact hsteps e (List.mem_of_mem_filter he)
  refine ⟨⟨_, rfl⟩, ⟨_, rfl⟩, ?_, hform.wall, ?_, ?_⟩
  · intro e he
    obtain ⟨l, -, rfl⟩ := List.mem_map.mp he
    exact ⟨l, rfl⟩
  · intro u' hu'
    obtain rfl := Except.ok.inj ((Time.ensureUtc_of_isUtcForm hform).symm.trans hu')
    exact hyear
  · intro e he
    rcases List.mem_append.mp he with he | he
    · obtain ⟨o, ho, rfl⟩ := List.mem_map.mp he
      exact hadded ho
    · obtain ⟨b, hb, he⟩ := List.mem_flatMap.mp he
      obtain ⟨o, ho, rfl⟩ := List.mem_map.mp he
      obtain ⟨l, -, rfl⟩ := List.mem_map.mp hb
      exact hadded ho

end Results

/-! ## Stores -/

namespace Store

variable {s : Store} {h : Host} {r : Results} {name : String} {steps : List Step}

/-- A store answers a history of one execution, with the operations that steps add. -/
def Recalls (s : Store) (h : Host) (name : String) (steps : List Step) : Prop :=
  ∃ found q, (s.history h (.text name)).result = .ok found ∧ found.results = [q] ∧
    q.Recalls steps

theorem recalls_of_reaches {c : Connection} {d : Storage} {db db' : Database}
    (hname : r.name = .text name) (hr : (r.withSteps steps).IsPlain)
    (hworks : h.failures.statement = none) (hempty : db.executions = [] ∧ db.operations = [])
    (hgains : Gains (r.withSteps steps) (r.withSteps steps).labelled.length db db')
    (hreach : s.Reaches h c d db') : s.Recalls h name steps := by
  obtain ⟨found, q, hfound, hone, hq⟩ := restored_of_reaches hr hworks hempty hgains hreach
  rw [show (r.withSteps steps).name = .text name from hname] at hfound
  exact ⟨found, q, hfound, hone, hq.recalls⟩

/-- What steps add is reported and read back, through any store of the file. -/
theorem recalls_of_report (hd : h.storage.IsSound) (hs : s.IsSound h.storage)
    (hempty : s.IsEmpty h) (hname : r.name = .text name) (hr : (r.withSteps steps).IsPlain)
    (hok : (s.report h (r.withSteps steps)).result = .ok ()) :
    (∀ f : Failures, f.schema = none → f.statement = none →
      (s.report h (r.withSteps steps)).store.Recalls
        ⟨(s.report h (r.withSteps steps)).storage, f⟩ name steps) ∧
    ∀ (place : Place) (s' : Store) (f : Failures), s.IsAt place h.storage →
      s'.IsAt place (s.report h (r.withSteps steps)).storage →
      s'.Serves ⟨(s.report h (r.withSteps steps)).storage, f⟩ →
      s'.Recalls ⟨(s.report h (r.withSteps steps)).storage, f⟩ name steps := by
  constructor
  · intro f hf hworks
    obtain ⟨c, d, db, c', d', db', hreach, hreach', hgains⟩ := reaches_of_report hd hs hok f hf
    exact recalls_of_reaches hname hr hworks (hempty c d db hreach) hgains hreach'
  · intro place s' f hat hat' hserves
    obtain ⟨c, d, db, -, -, -, hreach, -⟩ := reaches_of_report hd hs hok {} rfl
    obtain ⟨-, -, -, -, hdb⟩ := hat.reaches hd hreach
    obtain ⟨db₀, db', hdb₀, hafter, hgains, -⟩ := hat.report hd hok
    obtain rfl : db = db₀ := Except.ok.inj (hdb.symm.trans hdb₀)
    obtain ⟨c', d', hreach'⟩ := hat'.exists_reaches hafter hserves
    exact recalls_of_reaches hname hr hserves.statement (hempty c d db hreach) hgains hreach'

end Store

/--
**Nothing that is added to a draft is lost or mixed up, from its making to its history.**

Let a new draft be put together in any steps. It has one baseline for each label that a step
mentions, in the order of the first mentions, with the operations that were added under the label in
their order; its references tell the labels apart, and what is added further goes where it should
and nowhere else.

If its results are then reported without an error to a database without rows, and its time lies in
year 1000 or later in UTC, then the store answers a history of one execution, and so does every
other store of the same file that is served. It has, with the numbers of milliseconds and of bytes
of the operations, what was added to the build under test, and under each label under which there
was an operation what was added there; and it has no other label.
-/
theorem draft_survives {m : Memory} {name version : String} {time : Moment} {d : Draft}
    (hnew : Draft.new m (.text name) (.text version) time = .ok d) (steps : List Step) :
    (d.run steps).Assembles m d.results steps ∧
    ∀ (s : Store) (h : Host), time.wall.IsValid → 1000 ≤ d.time.wall.year →
      (∀ e ∈ steps.filterMap Step.entry?,
        e.2.time.IsRepresentable ∧ e.2.memory.IsRepresentable) →
      h.storage.IsSound → s.IsSound h.storage → s.IsEmpty h →
      (s.report h (d.run steps).results).result = .ok () →
      (∀ f : Failures, f.schema = none → f.statement = none →
        (s.report h (d.run steps).results).store.Recalls
          ⟨(s.report h (d.run steps).results).storage, f⟩ name steps) ∧
      ∀ (place : Place) (s' : Store) (f : Failures), s.IsAt place h.storage →
        s'.IsAt place (s.report h (d.run steps).results).storage →
        s'.Serves ⟨(s.report h (d.run steps).results).storage, f⟩ →
        s'.Recalls ⟨(s.report h (d.run steps).results).storage, f⟩ name steps := by
  have hassembles := assembles_run hnew steps
  refine ⟨hassembles, ?_⟩
  intro s h htime hyear hsteps hd hs hempty
  obtain ⟨u, hu, -, hfresh⟩ := new_spec hnew
  have hyear : 1000 ≤ u.wall.year := by
    rwa [show d.time = u from congrArg Results.time hfresh] at hyear
  rw [hassembles.results, hfresh]
  exact Store.recalls_of_report hd hs hempty rfl (Results.isPlain_withSteps htime hu hyear hsteps)

/-- Steps that mention a label before they use it, use the empty label, and go back and forth. -/
def sampleSteps : List Step :=
  [.mention "2", .append "" sampleOperation, .current sampleOperation, .append "1" sampleOperation,
    .append "" { sampleOperation with time := ⟨.finite false 7 0, .millisecond⟩ }, .mention "1"]

/-- A new draft, in the memory of another one. -/
def sampleDraft : Draft :=
  ofResults (ofResults {} sampleResults).memory
    { sampleResults with current := [], baselines := [] }

/-- A draft with a baseline of the empty label, and one of a label without operations. -/
theorem draft_survives_empty_label :
    mentioned sampleSteps = ["2", "", "1"] ∧
      (added (some "") sampleSteps).length = 2 ∧ added (some "2") sampleSteps = [] ∧
      (sampleDraft.run sampleSteps).Assembles (ofResults {} sampleResults).memory
        sampleDraft.results sampleSteps ∧
      sampleStore.IsEmpty {} ∧
      (sampleStore.report {} (sampleDraft.run sampleSteps).results).result = .ok () ∧
      (sampleStore.report {} (sampleDraft.run sampleSteps).results).store.Recalls
        ⟨(sampleStore.report {} (sampleDraft.run sampleSteps).results).storage, {}⟩ "n"
        sampleSteps := by
  have htime : Time.ensureUtc sampleResults.time = .ok sampleResults.time := by decide +kernel
  have hnew : Draft.new (ofResults {} sampleResults).memory (.text "n") (.text "2")
      sampleResults.time = .ok sampleDraft := by
    rw [Draft.new, Results.new, htime]
    rfl
  have hreport : (sampleStore.report {} (sampleDraft.run sampleSteps).results).result = .ok () := by
    decide +kernel
  have hsteps : ∀ e ∈ sampleSteps.filterMap Step.entry?,
      e.2.time.IsRepresentable ∧ e.2.memory.IsRepresentable := by
    have hsample := sample_isPlain.measures (.null, sampleOperation) List.mem_cons_self
    have hseven : Decimal.inRange 7 0 = true := by decide +kernel
    simp only [sampleSteps, Step.entry?, List.filterMap_cons, List.filterMap_nil,
      List.forall_mem_cons]
    exact ⟨hsample, hsample, hsample, ⟨hseven, hsample.2⟩, List.forall_mem_nil _⟩
  obtain ⟨hassembles, hstore⟩ := draft_survives hnew sampleSteps
  refine ⟨by decide, rfl, rfl, hassembles, Store.sample_isEmpty, hreport, ?_⟩
  exact (hstore sampleStore {} (by decide) (by decide) hsteps Disk.isSound_empty
    (Store.new_isSound _ _) Store.sample_isEmpty hreport).1 {} rfl rfl

end PerfLedger
