import Mathlib.Data.List.Nodup
import PerfLedger.Proofs.Results.Statistics
import PerfLedger.Proofs.Store.Session

/-!
# Storing does not change what is computed

Results that are stored and read back are equal to what they were, and so are the statistics of
their operations, list by list (`Reproduces`). What is read back is in base units and may be written
with other zeros, and the rounding happens in other places; none of this is seen by the operations
that compare, add and divide (`history_reproduces`).
-/

namespace PerfLedger

open Database

/-- Results of which everything can be computed: they have no failures, their base values are
numbers, their baselines are under their own labels and not empty, and their time was normalised. -/
structure Results.IsComputable (r : Results) : Prop where
  plain : r.IsPlain
  utc : ∃ m : Moment, m.wall.IsValid ∧ Time.ensureUtc m = .ok r.time
  labels : (r.baselines.map (·.1)).Nodup
  own : ∀ e ∈ r.baselines, e.2.version = .text e.1 ∧ e.2.operations ≠ []
  failure : ∀ e ∈ r.labelled, e.2.failure = none
  base : ∀ e ∈ r.labelled, ∀ k, ∃ x, (e.2.measure k).baseValue = .ok x ∧ x.isNaN = false

/-- Results that are equal to others, with equal statistics. -/
structure Results.Reproduces (r q : Results) : Prop where
  equal : q.equal r = .ok true
  current : ∀ (s : Statistic) (k : MeasureKind), Agree (fun a p => p.equal a = .ok true)
    (s.ofOperations k r.current) (s.ofOperations k q.current)
  baselines : ∀ e ∈ r.baselines, ∃ b, q.baseline? e.1 = some b ∧
    ∀ (s : Statistic) (k : MeasureKind), Agree (fun a p => p.equal a = .ok true)
      (s.ofOperations k e.2.operations) (s.ofOperations k b.operations)

/-! ## Operations -/

theorem Operation.Restores.recovers {o p : Operation} (h : o.Restores p) (hf : o.failure = none)
    (hb : ∀ k, ∃ x, (o.measure k).baseValue = .ok x ∧ x.isNaN = false) : o.Recovers p := by
  refine ⟨?_, hf, h.failure⟩
  intro k
  obtain ⟨x, hx, hnan⟩ := hb k
  cases k with
  | duration =>
    obtain ⟨t, ht, hsame, hunit⟩ := h.time
    exact Amount.restores_of_inBaseUnits ht hsame hunit hx hnan
  | dataAmount =>
    obtain ⟨m, hm, hsame, hunit⟩ := h.memory
    exact Amount.restores_of_inBaseUnits hm hsame hunit hx hnan

namespace Results

variable {r q : Results}

/-- The operations of a list of the results are recovered. -/
theorem IsComputable.recovers (h : r.IsComputable) {v : Value} {os ps : List Operation}
    (hmem : ∀ o ∈ os, (v, o) ∈ r.labelled) (hrest : List.Forall₂ Operation.Restores os ps) :
    List.Forall₂ Operation.Recovers os ps := by
  induction hrest with
  | nil => exact .nil
  | @cons o p os ps hop _ ih =>
    have ho := hmem o List.mem_cons_self
    exact .cons (hop.recovers (h.failure _ ho) (h.base _ ho))
      (ih fun x hx => hmem x (List.mem_cons_of_mem _ hx))

theorem mem_labelled_current {o : Operation} (h : o ∈ r.current) : (.null, o) ∈ r.labelled :=
  List.mem_append_left _ (List.mem_map.mpr ⟨o, h, rfl⟩)

theorem mem_labelled_baseline {e : String × Baseline} (he : e ∈ r.baselines) {o : Operation}
    (h : o ∈ e.2.operations) : (e.2.version, o) ∈ r.labelled :=
  List.mem_append_right _ (List.mem_flatMap.mpr ⟨e, he, List.mem_map.mpr ⟨o, h, rfl⟩⟩)

/-- Under its own label a baseline has its own operations. -/
theorem measuredAgainst_eq (hlabels : (r.baselines.map (·.1)).Nodup)
    (hown : ∀ e ∈ r.baselines, e.2.version = .text e.1) {e : String × Baseline}
    (he : e ∈ r.baselines) : r.measuredAgainst e.1 = e.2.operations := by
  unfold measuredAgainst
  generalize r.baselines = es at he hown hlabels ⊢
  induction es with
  | nil => exact absurd he List.not_mem_nil
  | cons x xs ih =>
    rw [List.map_cons, List.nodup_cons] at hlabels
    have hown' := fun y hy => hown y (List.mem_cons_of_mem _ hy)
    rw [List.flatMap_cons, hown x List.mem_cons_self]
    -- No other entry has the label, nor the version.
    rcases List.mem_cons.mp he with rfl | he
    · have hrest : (xs.flatMap fun y =>
          if y.2.version.label? = some e.1 then y.2.operations else []) = [] := by
        refine List.flatMap_eq_nil_iff.mpr fun y hy => if_neg fun hy' => hlabels.1 ?_
        rw [hown' y hy, Value.label?, Option.some.injEq] at hy'
        exact List.mem_map.mpr ⟨y, hy, hy'⟩
      rw [Value.label?, if_pos rfl, hrest, List.append_nil]
    · have hne : x.1 ≠ e.1 := fun hc => hlabels.1 (List.mem_map.mpr ⟨e, he, hc.symm⟩)
      rw [Value.label?, if_neg (by simpa using hne), List.nil_append]
      exact ih he hown' hlabels.2

/-! ## Equality -/

theorem equal_text (s : String) : (Value.text s).equal (.text s) = .ok true := by
  simp [Value.equal]

theorem equalEntries_of_forall {others es : List (String × Baseline)}
    (h : ∀ e ∈ es, ∃ c, (others.find? fun x => x.1 == e.1).map (·.2) = some c ∧
      equalBaseline e.2 c = .ok true) : equalEntries others es = .ok true := by
  induction es with
  | nil => rfl
  | cons e es ih =>
    obtain ⟨label, b⟩ := e
    obtain ⟨c, hfind, hequal⟩ := h _ List.mem_cons_self
    simp only [equalEntries, hfind, hequal, bind, Except.bind, if_true]
    exact ih fun x hx => h x (List.mem_cons_of_mem _ hx)

/-- A baseline that is read back, and the one that it was. -/
theorem IsComputable.baseline (h : r.IsComputable) (hq : r.Restores q) {e b : String × Baseline}
    (he : e ∈ r.baselines) (hb : b ∈ q.baselines) (hl : b.1 = e.1) :
    b.2.version = e.2.version ∧
      List.Forall₂ Operation.Recovers e.2.operations b.2.operations := by
  obtain ⟨hversion, hops⟩ := hq.baselines b hb
  rw [hl] at hversion hops
  rw [measuredAgainst_eq h.labels (fun x hx => (h.own x hx).1) he] at hops
  exact ⟨hversion.trans (h.own e he).1.symm, h.recovers (fun _ => mem_labelled_baseline he) hops⟩

theorem IsComputable.mem_labels (h : r.IsComputable) (hq : r.Restores q) (l : String) :
    l ∈ q.baselines.map (·.1) ↔ l ∈ r.baselines.map (·.1) := by
  rw [hq.mem_labels, List.mem_map]
  constructor
  · rintro ⟨e, he, hv, -⟩
    refine ⟨e, he, ?_⟩
    rw [(h.own e he).1] at hv
    exact Value.text.inj hv
  · rintro ⟨e, he, rfl⟩
    exact ⟨e, he, h.own e he⟩

theorem Restores.nodup_labels (hq : r.Restores q) : (q.baselines.map (·.1)).Nodup := by
  refine hq.ascending.imp ?_
  intro l l' hlt
  rintro rfl
  exact String.lt_irrefl l hlt

/-- The time of results that were normalised is kept. -/
theorem IsComputable.same_time (h : r.IsComputable) (hq : r.Restores q) :
    q.time.same r.time = true := by
  obtain ⟨m, hm, hr⟩ := h.utc
  obtain ⟨hzone, hwall, -⟩ := Moment.toUtc?_spec hm (Time.ensureUtc_eq_ok.mp hr)
  obtain ⟨hzone', -, hinstant⟩ := Moment.toUtc?_spec hwall (Time.ensureUtc_eq_ok.mp hq.time)
  simp only [Moment.same, Moment.isAware, hzone, hzone', hinstant, beq_self_eq_true]

/-- **Results and what is read back of them are equal.** -/
theorem IsComputable.equal (h : r.IsComputable) (hq : r.Restores q) : q.equal r = .ok true := by
  obtain ⟨n, hn⟩ := h.plain.name
  obtain ⟨v, hv⟩ := h.plain.version
  have hname : q.name.equal r.name = .ok true := by
    rw [hq.name, hn]
    exact equal_text n
  have hversion : q.version.equal r.version = .ok true := by
    rw [hq.version, hv]
    exact equal_text v
  have hcurrent : equalOperations q.current r.current = .ok true :=
    equalOperations_of_recovers (h.recovers (fun _ => mem_labelled_current) hq.current)
  -- There are the same labels on both sides, each once.
  have hlength : q.baselines.length = r.baselines.length := by
    have hperm := (List.perm_ext_iff_of_nodup hq.nodup_labels h.labels).mpr (h.mem_labels hq)
    simpa using hperm.length_eq
  have hentries : equalEntries r.baselines q.baselines = .ok true := by
    refine equalEntries_of_forall ?_
    intro b hb
    obtain ⟨e, he, hl⟩ := List.mem_map.mp ((h.mem_labels hq b.1).mp (List.mem_map.mpr ⟨b, hb, rfl⟩))
    obtain ⟨hversion, hops⟩ := h.baseline hq he hb hl.symm
    refine ⟨e.2, (baseline?_eq_some h.labels).mpr (hl ▸ he), ?_⟩
    unfold equalBaseline
    rw [hversion, (h.own e he).1, equal_text]
    exact equalOperations_of_recovers hops
  simp only [Results.equal, hname, hversion, h.same_time hq, hcurrent, hlength, hentries, bind,
    Except.bind, Bool.not_true, Bool.false_eq_true, if_false, ne_eq, not_true_eq_false, pure,
    Except.pure]

/-- **Results and what is read back of them have the same statistics.** -/
theorem IsComputable.reproduces (h : r.IsComputable) (hq : r.Restores q) : r.Reproduces q := by
  refine ⟨h.equal hq, ?_, ?_⟩
  · intro s k
    exact (s.ofOperations_agree k (h.recovers (fun _ => mem_labelled_current) hq.current)).imp
      fun _ _ => Amount.Restores.equal
  · intro e he
    obtain ⟨b, hb, hl⟩ :=
      List.mem_map.mp ((h.mem_labels hq e.1).mpr (List.mem_map.mpr ⟨e, he, rfl⟩))
    refine ⟨b.2, (baseline?_eq_some hq.nodup_labels).mpr (hl ▸ hb), fun s k => ?_⟩
    exact (s.ofOperations_agree k (h.baseline hq he hb hl).2).imp fun _ _ => Amount.Restores.equal

end Results

/-! ## Stores -/

namespace Store

variable {s : Store} {h : Host} {r : Results}

/-- The database that a store reaches has no rows. -/
def IsEmpty (s : Store) (h : Host) : Prop :=
  ∀ c d db, s.Reaches h c d db → db.executions = [] ∧ db.operations = []

/-- A store that reported without an error holds a connection to what it has recorded. -/
theorem reaches_of_report (hd : h.storage.IsSound) (hs : s.IsSound h.storage)
    (hok : (s.report h r).result = .ok ()) (f : Failures) (hf : f.schema = none) :
    ∃ c d db c' d' db', s.Reaches h c d db ∧
      (s.report h r).store.Reaches ⟨(s.report h r).storage, f⟩ c' d' db' ∧
      Database.Gains r r.labelled.length db db' := by
  have hok : (s.run h fun a db => db.record a r).result = .ok () := mapError_eq_ok.mp hok
  obtain ⟨c, d, db, hr⟩ := exists_reaches_of_ok hok
  obtain ⟨-, hsound, -, l, hl, -⟩ := hr.spec hd hs
  obtain ⟨hstore, hstorage, hresult⟩ := run_of_reaches hr fun a db => db.record a r
  rw [hok] at hresult
  obtain ⟨db', hdb'⟩ : ∃ db', db' = (db.record (h.access d c) r).database := ⟨_, rfl⟩
  have hgains : Database.Gains r r.labelled.length db db' := hdb' ▸ record_gains hresult.symm
  rw [← hdb'] at hstore hstorage
  refine ⟨c, d, db, (c.write d db').2, (c.write d db').1, db', hr, ⟨(c.write d db').2, ?_, ?_⟩,
    hgains⟩
  · show ((s.run h _).store.acquire _).2.1 = _
    rw [hstore]
    rfl
  · show Host.ensureTables ⟨((s.run h _).store.acquire ⟨(s.run h _).storage, f⟩).1, f⟩ _ = _
    rw [hstore, hstorage]
    exact ensureTables_of_write hsound (by simp [hl]) hf

/-- The history in a database into which only results were recorded has a normal form of them. -/
theorem restored_of_reaches {c : Connection} {d : Storage} {db db' : Database} (hr : r.IsPlain)
    (hworks : h.failures.statement = none)
    (hempty : db.executions = [] ∧ db.operations = [])
    (hgains : Database.Gains r r.labelled.length db db') (hreach : s.Reaches h c d db') :
    ∃ found q, (s.history h r.name).result = .ok found ∧ found.results = [q] ∧ r.Restores q := by
  have hlogs : Database.Logs ([] ++ [r]) db' := .report (.empty hempty.1 hempty.2) hgains
  obtain ⟨n, hn⟩ := hr.name
  obtain ⟨found, hfound, hlists⟩ :=
    history_of_logs hlogs (fun x hx => List.mem_singleton.mp hx ▸ hr) n
  obtain ⟨order, hperm, -, hrest⟩ := hlists.results
  -- The log has one entry, which has the name that is asked for.
  have hone : ([] ++ [r]).zipIdx.filter (fun e => e.1.name.label? == some n) = [(r, 0)] := by
    simp [hn, Value.label?]
  rw [hone, List.perm_singleton] at hperm
  rw [hperm] at hrest
  obtain ⟨q, qs, hq, hnil, hresults⟩ := List.forall₂_cons_left_iff.mp hrest
  rw [List.forall₂_nil_left_iff] at hnil
  refine ⟨found, q, ?_, by rw [hresults, hnil], hq⟩
  rw [hreach.history_result, hn, hfound _ hworks]
  rfl

/-- A store answers a history of one execution, which reproduces results. -/
def ReadsBack (s : Store) (h : Host) (r : Results) : Prop :=
  ∃ found q, (s.history h r.name).result = .ok found ∧ found.results = [q] ∧ r.Reproduces q

theorem readsBack_of_reaches {c : Connection} {d : Storage} {db db' : Database}
    (hr : r.IsComputable) (hworks : h.failures.statement = none)
    (hempty : db.executions = [] ∧ db.operations = [])
    (hgains : Database.Gains r r.labelled.length db db') (hreach : s.Reaches h c d db') :
    s.ReadsBack h r := by
  obtain ⟨found, q, hfound, hone, hq⟩ := restored_of_reaches hr.plain hworks hempty hgains hreach
  exact ⟨found, q, hfound, hone, hr.reproduces hq⟩

/--
**Storing does not change what is computed.**

Let results be reported without an error to a database without rows. Then the store answers a
history of one execution, and so does every other store of the same file that is served. What is
read back is equal to the results, and its statistics are equal to theirs or fail like them, for the
operations of the build under test and for those of each baseline.
-/
theorem history_reproduces (hd : h.storage.IsSound) (hs : s.IsSound h.storage)
    (hempty : s.IsEmpty h) (hr : r.IsComputable) (hok : (s.report h r).result = .ok ()) :
    (∀ f : Failures, f.schema = none → f.statement = none →
      (s.report h r).store.ReadsBack ⟨(s.report h r).storage, f⟩ r) ∧
    ∀ (place : Place) (s' : Store) (f : Failures), s.IsAt place h.storage →
      s'.IsAt place (s.report h r).storage → s'.Serves ⟨(s.report h r).storage, f⟩ →
      s'.ReadsBack ⟨(s.report h r).storage, f⟩ r := by
  constructor
  · intro f hf hworks
    obtain ⟨c, d, db, c', d', db', hreach, hreach', hgains⟩ := reaches_of_report hd hs hok f hf
    exact readsBack_of_reaches hr hworks (hempty c d db hreach) hgains hreach'
  · intro place s' f hat hat' hserves
    obtain ⟨c, d, db, -, -, -, hreach, -⟩ := reaches_of_report hd hs hok {} rfl
    obtain ⟨-, -, -, -, hdb⟩ := hat.reaches hd hreach
    obtain ⟨db₀, db', hdb₀, hafter, hgains, -⟩ := hat.report hd hok
    obtain rfl : db = db₀ := Except.ok.inj (hdb.symm.trans hdb₀)
    obtain ⟨c', d', hreach'⟩ := hat'.exists_reaches hafter hserves
    exact readsBack_of_reaches hr hserves.statement (hempty c d db hreach) hgains hreach'

theorem sample_isComputable : sampleResults.IsComputable := by
  refine ⟨sample_isPlain, ⟨sampleResults.time, by decide, by decide +kernel⟩, by decide, ?_,
    ?_, ?_⟩
  · intro e he
    rw [List.mem_singleton.mp he]
    exact ⟨rfl, List.cons_ne_nil _ _⟩
  · intro e he
    rw [snd_mem_sample he]
    rfl
  · intro e he k
    rw [snd_mem_sample he]
    cases k with
    | duration => exact ⟨.finite false 15000 (-1), by decide +kernel, rfl⟩
    | dataAmount => exact ⟨.finite false 3072 2, by decide +kernel, rfl⟩

theorem sample_isEmpty : sampleStore.IsEmpty {} := by
  intro c d db hr
  obtain ⟨-, -, -, -, hdb⟩ :=
    (isAt_of_connection_eq_none sample_isOf rfl).reaches Disk.isSound_empty hr
  obtain rfl : {} = db := Except.ok.inj hdb
  exact ⟨rfl, rfl⟩

/-- A first report through a store reads back. -/
theorem history_reproduces_sample :
    sampleStore.IsEmpty {} ∧ sampleResults.IsComputable ∧
      (sampleStore.report {} sampleResults).result = .ok () ∧
      (sampleStore.report {} sampleResults).store.ReadsBack
        ⟨(sampleStore.report {} sampleResults).storage, {}⟩ sampleResults :=
  ⟨sample_isEmpty, sample_isComputable, sample_reported,
    (history_reproduces Disk.isSound_empty (new_isSound _ _) sample_isEmpty sample_isComputable
      sample_reported).1 {} rfl rfl⟩

end Store

end PerfLedger
