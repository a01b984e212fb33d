import Mathlib.Algebra.BigOperators.Group.List.Lemmas
import Mathlib.Data.List.Count
import Mathlib.Data.List.Permutation
import PerfLedger.Proofs.Store.Isolation

/-!
# Names and histories

A store can be asked for the names of all tests, and for the history of one. The two answers fit
together: the tests that are named are those that have a history with an entry, and their histories
have one entry for each execution that there is (`queries_agree`).

This holds of a database from which every history can be read (`Database.IsLegible`). A report
leaves such a database even where it fails, because the rows that it puts in before it fails are
whole: the stamp and the name of the execution, and the numerals of the operations that were added
(`IsLegible.record`).
-/

namespace PerfLedger

open Database

/-! ## Names in order -/

theorem dropRepeats_map_text (ss : List String) :
    dropRepeats (ss.map Cell.text) = ss.eraseReps.map Cell.text := by
  match ss with
  | [] => rfl
  | [s] => rfl
  | s :: t :: ss =>
    have ih := dropRepeats_map_text (t :: ss)
    by_cases h : s = t
    · subst h
      rw [eraseReps_cons_self, ← ih]
      simp only [List.map_cons, dropRepeats, if_true]
    · rw [eraseReps_cons_ne h]
      refine .trans ?_ (congrArg (Cell.text s :: ·) ih)
      simp only [List.map_cons, dropRepeats, Cell.text.injEq, h, if_false]

theorem order_text (s t : String) :
    (Cell.order (.text s) (.text t)).isLE = !decide (t < s) := by
  show (compareOfLessAndEq s t).isLE = _
  unfold compareOfLessAndEq
  by_cases hlt : s < t
  · simp [hlt, String.lt_asymm hlt]
  · by_cases heq : s = t
    · simp [heq]
    · simp [hlt, heq, lt_of_not_lt_of_ne hlt (Ne.symm heq)]

/-- Names that are texts are answered in order, each once. -/
theorem Database.testNames_eq_ok {db : Database} {ss : List String}
    (h : db.executions.map (·.name) = ss.map Cell.text) {a : Access} (ha : a.failing = none) :
    db.testNames a = .ok (sortTexts ss) := by
  have hsorted : (ss.map Cell.text).mergeSort (fun c d => (c.order d).isLE)
      = (ss.mergeSort fun s t => !decide (t < s)).map Cell.text :=
    (List.map_mergeSort fun s _ t _ => (order_text s t).symm).symm
  have hnames : db.names = (sortTexts ss).map Cell.text := by
    rw [names, h, hsorted, dropRepeats_map_text, sortTexts]
  have hfetch : ((sortTexts ss).map Cell.text).mapM (Cell.fetch "testName")
      = .ok ((sortTexts ss).map Value.text) := by
    rw [mapM_eq_ok, List.forall₂_map_left_iff, List.forall₂_map_right_iff, List.forall₂_same]
    exact fun _ _ => rfl
  have hread : ((sortTexts ss).map Value.text).mapM (Value.toTextField "testName")
      = .ok (sortTexts ss) := by
    rw [mapM_eq_ok, List.forall₂_map_left_iff, List.forall₂_same]
    exact fun _ _ => rfl
  rw [testNames_eq ha, hnames, hfetch]
  exact congrArg (Except.mapError StoreFault.field) hread

/-! ## Databases that can be read -/

/-- Results whose name is a text, whose time lies in year 1000 or later in UTC, and whose measures
can be written as numerals. -/
structure Results.IsLegible (r : Results) : Prop where
  name : ∃ s, r.name = .text s
  wall : r.time.wall.IsValid
  year : ∀ u, Time.ensureUtc r.time = .ok u → 1000 ≤ u.wall.year
  measures : ∀ e ∈ r.labelled, e.2.time.IsRepresentable ∧ e.2.memory.IsRepresentable

theorem Results.IsPlain.isLegible {r : Results} (h : r.IsPlain) : r.IsLegible :=
  ⟨h.name, h.wall, h.year, h.measures⟩

/-- A database of which every execution has a text for its name and can be read. -/
structure Database.IsLegible (db : Database) : Prop where
  regular : db.IsRegular
  name : ∀ e ∈ db.executions, ∃ s, e.name = .text s
  version : ∀ e ∈ db.executions, ¬e.version.IsGarbled
  time : ∀ e ∈ db.executions, ∃ v m, e.time.fetch "executionTime" = .ok v ∧
    v.toMomentField = .ok m
  operation : ∀ o ∈ db.operations, ∃ x p, o.fetch = .ok x ∧ x.toOperation = .ok p

namespace Database

variable {db db' : Database} {n : String}

theorem isLegible_of_eq_nil (he : db.executions = []) (ho : db.operations = []) :
    db.IsLegible := by
  refine ⟨isRegular_of_eq_nil he ho, ?_, ?_, ?_, ?_⟩ <;> simp [he, ho]

/-- What is gained of legible results is legible, however much of it there is. -/
theorem IsLegible.gains {r : Results} {k : Nat} (h : db.IsLegible) (hr : r.IsLegible)
    (hgains : Gains r k db db') (hregular : db'.IsRegular) : db'.IsLegible := by
  obtain ⟨row, rows, hrow, -, -, hrows, -, rfl⟩ := hgains.added
  obtain ⟨s, hs⟩ := hr.name
  refine ⟨hregular, ?_, ?_, ?_, ?_⟩
  · intro e he
    rcases List.mem_append.mp he with he | he
    · exact h.name e he
    · rw [List.mem_singleton.mp he]
      exact ⟨s, hrow.name_eq hs⟩
  · intro e he
    rcases List.mem_append.mp he with he | he
    · exact h.version e he
    · rw [List.mem_singleton.mp he]
      obtain ⟨c, hc, hversion⟩ := hrow.version
      rw [hversion, ← Cell.exists_fetch_error _ "targetVersion"]
      obtain ⟨x, hx⟩ := Cell.exists_fetch_of_ofValue hc "targetVersion"
      simp [hx]
  · intro e he
    rcases List.mem_append.mp he with he | he
    · exact h.time e he
    · rw [List.mem_singleton.mp he]
      obtain ⟨u, -, -, -, -, htime, hmoment⟩ := hrow.exists_utc hr.wall hr.year
      exact ⟨_, u, congrArg (Cell.fetch "executionTime") htime, hmoment⟩
  · intro o ho
    rcases List.mem_append.mp ho with ho | ho
    · exact h.operation o ho
    · obtain ⟨e, he, hholds⟩ := exists_of_forall₂_right hrows ho
      obtain ⟨htime, hmemory⟩ := hr.measures e (List.mem_of_mem_take he)
      obtain ⟨x, p, hx, hp, -⟩ := hholds.toOperation htime hmemory
      exact ⟨x, p, hx, hp⟩

/-- **A report of legible results leaves a legible database**, even where it fails midway. -/
theorem IsLegible.record {r : Results} (h : db.IsLegible) (hr : r.IsLegible) (a : Access) :
    (db.record a r).database.IsLegible := by
  rcases db.record_spec a r with ⟨-, hsame⟩ | ⟨k, hgains, -⟩
  · rw [hsame]
    exact h
  · exact h.gains hr hgains ((db.record_grows a r).isRegular h.regular)

theorem IsLegible.not_isSpoiled (h : db.IsLegible) {e : ExecutionRow} (he : e ∈ db.executions) :
    ¬db.IsSpoiled e := by
  obtain ⟨v, m, hv, hm⟩ := h.time e he
  exact Database.not_isSpoiled (h.version e he) hv hm h.operation

/-! ## Names and histories of a database -/

/-- Every history can be read, and has an entry of its name for each execution with that name. -/
theorem IsLegible.exists_history (h : db.IsLegible) (n : String) :
    ∃ found, (∀ a : Access, a.failing = none → db.history a (.text n) = .ok found) ∧
      (∀ r ∈ found.results, r.name = .text n) ∧
      found.results.length = (db.rowsNamed n).length := by
  have hversion : ∀ e ∈ db.executions, e.version ≠ .null :=
    fun e he => (h.regular.execution_cells e he).2.2.ne_null
  cases hfound : db.history {} (.text n) with
  | error f =>
    obtain ⟨e, he, -, hspoiled⟩ := (exists_history_error hversion rfl n).mp ⟨f, hfound⟩
    exact absurd hspoiled (h.not_isSpoiled he)
  | ok found =>
    obtain ⟨rows, hperm, hshows⟩ := (h.regular.lists_of_history rfl hfound).results
    refine ⟨found, fun a ha => ?_, ?_, ?_⟩
    · rw [history_eq ha, ← hfound, history_eq (a := {}) rfl]
    · intro r hr
      obtain ⟨e, -, hshown⟩ := exists_of_forall₂_right hshows hr
      exact hshown.name
    · rw [← hshows.length_eq, hperm.length_eq]

/-- The names of the executions are texts. -/
theorem IsLegible.exists_texts (h : db.IsLegible) :
    ∃ ss : List String, db.executions.map (·.name) = ss.map Cell.text := by
  obtain ⟨ss, hss⟩ := exists_forall₂ h.name
  refine ⟨ss, ?_⟩
  rw [← List.forall₂_eq_eq_eq, List.forall₂_map_left_iff, List.forall₂_map_right_iff]
  exact hss

variable {ss ns : List String}

theorem length_rowsNamed (hss : db.executions.map (·.name) = ss.map Cell.text) (n : String) :
    (db.rowsNamed n).length = ss.count n := by
  have hcount : (db.executions.map (·.name)).count (.text n) = (db.rowsNamed n).length := by
    rw [List.count, List.countP_map, List.countP_eq_length_filter]
    rfl
  rw [← hcount, hss]
  exact List.count_map_of_injective ss Cell.text (fun _ _ => Cell.text.inj) n

/-- The members of a list are counted once for each of the names that occur in it. -/
theorem sum_count (hns : ns.Nodup) (hmem : ∀ n, n ∈ ns ↔ n ∈ ss) :
    (ns.map fun n => ss.count n).sum = ss.length := by
  have hperm : ns.Perm ss.dedup := by
    rw [List.perm_ext_iff_of_nodup hns ss.nodup_dedup]
    intro n
    rw [hmem, List.mem_dedup]
  rw [(hperm.map _).sum_eq]
  exact List.sum_map_count_dedup_eq_length ss

/-- What the two queries answer of a database, and how it fits together. -/
structure QueriesAgree (db : Database) (names : List String) (histories : String → History) :
    Prop where
  ascending : names.Pairwise (· < ·)
  mem_names : ∀ n, n ∈ names ↔ (histories n).results ≠ []
  name : ∀ n, ∀ r ∈ (histories n).results, r.name = .text n
  sum_length : (names.map fun n => (histories n).results.length).sum = db.executions.length

/-- **The names of a database and its histories agree.** -/
theorem IsLegible.queriesAgree (h : db.IsLegible) :
    ∃ names histories, (∀ a : Access, a.failing = none → db.testNames a = .ok names ∧
        ∀ n, db.history a (.text n) = .ok (histories n)) ∧
      db.QueriesAgree names histories := by
  obtain ⟨ss, hss⟩ := h.exists_texts
  choose histories hfound hname hlength using h.exists_history
  have hcount (n : String) : (histories n).results.length = ss.count n :=
    (hlength n).trans (length_rowsNamed hss n)
  have hascending := pairwise_sortTexts ss
  refine ⟨sortTexts ss, histories,
    fun a ha => ⟨testNames_eq_ok hss ha, fun n => hfound n a ha⟩, hascending, ?_, hname, ?_⟩
  · intro n
    rw [mem_sortTexts, ← List.count_pos_iff, ← hcount, List.length_pos_iff]
  · have hnodup : (sortTexts ss).Nodup :=
      List.nodup_iff_pairwise_ne.mpr (hascending.imp String.ne_of_lt)
    simp only [hcount]
    rw [sum_count hnodup fun n => mem_sortTexts, ← ss.length_map Cell.text, ← hss, List.length_map]

end Database

/-! ## Stores -/

theorem Store.Reaches.names_result {s : Store} {h : Host} {c : Connection} {d : Storage}
    {db : Database} (hr : s.Reaches h c d db) :
    (s.names h).result = (db.testNames (h.access d c)).mapError (.names s.path) := by
  obtain ⟨-, -, hresult⟩ :=
    run_of_reaches hr fun a db => { database := db, result := db.testNames a }
  exact congrArg (Except.mapError (StoreError.names s.path)) hresult

namespace Store

variable {s : Store} {h : Host} {d : Storage}

/-- All databases that a store may reach are legible. -/
def IsLegible (s : Store) (d : Storage) : Prop :=
  ∀ l db, s.databaseAt d l = .ok db → db.IsLegible

theorem isLegible_of_not_memory (hfiles : ∀ id db, d.databaseAt id = .ok db → db.IsLegible)
    (hs : ∀ content, s.connection ≠ some (.memory content)) : s.IsLegible d := by
  intro l db hdb
  cases l with
  | file id => exact hfiles id db hdb
  | memory =>
    rw [databaseAt, memoryDatabase_eq hs] at hdb
    exact Except.ok.inj hdb ▸ isLegible_of_eq_nil rfl rfl

theorem IsLegible.files (h : s.IsLegible d) {s' : Store}
    (hs' : ∀ content, s'.connection ≠ some (.memory content)) : s'.IsLegible d :=
  isLegible_of_not_memory (fun id db hdb => h (.file id) db hdb) hs'

/-- An operation leaves databases legible if its action does. -/
theorem IsLegible.run (hd : h.storage.IsSound) (hs : s.IsSound h.storage)
    (hlegible : s.IsLegible h.storage) {α : Type} (action : Access → Database → Reply α)
    (haction : ∀ a (db : Database), db.IsLegible → (action a db).database.IsLegible) :
    (s.run h action).store.IsLegible (s.run h action).storage := by
  rcases s.reaches_or h with ⟨c, d, db, hr⟩ | hr
  · obtain ⟨-, -, -, l, hl, hdb⟩ := hr.spec hd hs
    obtain ⟨hstore, hstorage, -⟩ := run_of_reaches hr action
    obtain ⟨hat, hother⟩ := hr.write hd hs hl (action (h.access d c) db).database
      (congrArg connection hstore)
    rw [hstorage]
    intro l' db' hdb'
    by_cases hll : l' = l
    · rw [hll, hat] at hdb'
      exact Except.ok.inj hdb' ▸ haction _ db (hlegible l db hdb)
    · exact hlegible l' db' (hother l' hll ▸ hdb')
  · obtain ⟨-, hstore⟩ := run_of_not_reaches hr action
    refine isLegible_of_not_memory ?_ ?_
    · intro id db hdb
      have hkeeps := keeps_of_not_reaches hd hs hr action
      exact hlegible (.file id) db ((hkeeps.databaseAt id).symm.trans hdb)
    · intro content hc
      rcases hstore with ⟨heq, hnone⟩ | heq
      · rw [heq, hnone] at hc
        exact absurd hc (by simp)
      · rw [heq] at hc
        exact absurd hc (by simp)

theorem IsLegible.after (hd : h.storage.IsSound) (hs : s.IsSound h.storage)
    (hlegible : s.IsLegible h.storage) (c : Call) :
    (s.after h c).1.IsLegible (s.after h c).2 := by
  have hnames : (s.names h).store.IsLegible (s.names h).storage :=
    hlegible.run hd hs _ fun _ _ hdb => hdb
  cases c with
  | names => exact hnames
  | history name => exact hlegible.run hd hs _ fun _ _ hdb => hdb
  | close =>
    obtain ⟨hstorage, hstore⟩ := s.close_spec h
    simp only [Store.after, hstorage, hstore]
    exact hlegible.files (by simp)
  | visit failure =>
    obtain ⟨hstorage, hstore⟩ :=
      (s.names h).store.close_spec { h with storage := (s.names h).storage }
    have hvisit : s.after h (.visit failure)
        = ({ (s.names h).store with connection := none }, (s.names h).storage) :=
      Prod.ext hstore hstorage
    rw [hvisit]
    exact hnames.files (by simp)
  | breakConnection =>
    have hbroken : ∀ content, s.breakConnection.connection ≠ some (.memory content) := by
      simp [breakConnection]
    exact hlegible.files hbroken

end Store

namespace Session

variable {σ τ : Session} {s : Store} {f : Failures} {db : Database}

/-- A store is started, reports legible results, is read or closed, whatever fails and whatever is
answered. -/
inductive Filing : Session → Session → Prop where
  | start {d ss} (p : Path) : Filing ⟨d, ss⟩ ⟨d, ss ++ [.new p]⟩
  | report {d before s behind} (failures : Failures) {r : Results} (legible : r.IsLegible) :
      Filing ⟨d, before ++ s :: behind⟩ ⟨(s.report ⟨d, failures⟩ r).storage,
        before ++ (s.report ⟨d, failures⟩ r).store :: behind⟩
  | call {d before s behind} (failures : Failures) (c : Store.Call) :
      Filing ⟨d, before ++ s :: behind⟩
        ⟨(s.after ⟨d, failures⟩ c).2, before ++ (s.after ⟨d, failures⟩ c).1 :: behind⟩

/-- Any number of these. -/
abbrev Filings : Session → Session → Prop :=
  Relation.ReflTransGen Filing

theorem Filing.act (h : Filing σ τ) : Act σ τ := by
  cases h with
  | start p => exact .start p
  | report failures legible => exact .report failures _
  | call failures c => exact .call failures c

/-- The invariant of filings: all databases are legible. -/
structure IsLegible (σ : Session) : Prop where
  sound : σ.IsSound
  files : ∀ id db, σ.storage.databaseAt id = .ok db → db.IsLegible
  stores : ∀ s ∈ σ.stores, s.IsLegible σ.storage

theorem IsBlank.isLegible (h : σ.IsBlank) : σ.IsLegible := by
  refine ⟨h.isRegular.sound, ?_, fun s hs => absurd (h.stores ▸ hs) List.not_mem_nil⟩
  intro id db hdb
  rw [h.databaseAt_eq hdb]
  exact isLegible_of_eq_nil rfl rfl

/-- One store was used, and left its databases legible. -/
theorem isLegible_replace {d d' : Storage} {before behind : List Store} {s s' : Store}
    (h : IsLegible ⟨d, before ++ s :: behind⟩) (hsound : IsSound ⟨d', before ++ s' :: behind⟩)
    (hs' : s'.IsLegible d') : IsLegible ⟨d', before ++ s' :: behind⟩ := by
  have hfiles : ∀ id db, d'.databaseAt id = .ok db → db.IsLegible :=
    fun id db hdb => hs' (.file id) db hdb
  refine ⟨hsound, hfiles, forall_mem_replace h.stores ?_ hs'⟩
  -- What the other stores hold in memory is what it was.
  intro x hx l db hdb
  cases l with
  | file id => exact hfiles id db hdb
  | memory => exact hx .memory db hdb

/-- **Filing keeps databases legible.** -/
theorem IsLegible.filing (hσ : σ.IsLegible) (h : Filing σ τ) : τ.IsLegible := by
  have hsound := (h.act.spec hσ.sound).1
  cases h with
  | start p =>
    exact ⟨hsound, hσ.files,
      forall_mem_start hσ.stores (Store.isLegible_of_not_memory hσ.files (by simp [Store.new]))⟩
  | @report d before s behind failures r legible =>
    have hmem : s ∈ before ++ s :: behind := List.mem_append_right _ List.mem_cons_self
    refine isLegible_replace hσ hsound ?_
    exact (hσ.stores s hmem).run (h := ⟨d, failures⟩) hσ.sound.storage (hσ.sound.stores s hmem) _
      fun a _ hdb => hdb.record legible a
  | @call d before s behind failures c =>
    have hmem : s ∈ before ++ s :: behind := List.mem_append_right _ List.mem_cons_self
    refine isLegible_replace hσ hsound ?_
    exact (hσ.stores s hmem).after (h := ⟨d, failures⟩) hσ.sound.storage
      (hσ.sound.stores s hmem) c

theorem IsLegible.filings (hσ : σ.IsLegible) (h : Filings σ τ) : τ.IsLegible := by
  induction h with
  | refl => exact hσ
  | tail _ hfiling ih => exact ih.filing hfiling

theorem IsLegible.of_finds (hσ : σ.IsLegible) (h : σ.Finds s f db) : db.IsLegible := by
  obtain ⟨hs, ⟨c, d, hr⟩, -⟩ := h
  rcases hs with hs | ⟨p, rfl⟩
  · obtain ⟨-, -, -, l, -, hdb⟩ := hr.spec hσ.sound.storage (hσ.sound.stores s hs)
    exact hσ.stores s hs l db hdb
  · obtain ⟨-, -, -, l, -, hdb⟩ := hr.spec hσ.sound.storage (Store.new_isSound p _)
    exact Store.isLegible_of_not_memory hσ.files (by simp [Store.new]) l db hdb

/--
**The two queries agree.**

Let a session begin without a database, and let any number of stores report results with a text for
their name and a time from year 1000 on, whether the reports succeed or fail midway. A store that
finds a database then answers its names, in strictly ascending order; and every store that finds
the same rows, then or later, answers the history of each name. A name is answered if and only if
its history has an entry; the entries of a history have its name; and there are as many entries in
the histories of the names as there are executions.
-/
theorem queries_agree {σ₀ : Session} (hblank : σ₀.IsBlank) (hfilings : Filings σ₀ σ)
    (hfinds : σ.Finds s f db) :
    ∃ names histories, (s.names ⟨σ.storage, f⟩).result = .ok names ∧
      (∀ (τ : Session) (s' : Store) (f' : Failures), τ.Finds s' f' db →
        ∀ n, (s'.history ⟨τ.storage, f'⟩ (.text n)).result = .ok (histories n)) ∧
      db.QueriesAgree names histories := by
  obtain ⟨names, histories, hanswers, hagree⟩ :=
    ((hblank.isLegible.filings hfilings).of_finds hfinds).queriesAgree
  obtain ⟨-, ⟨c, d, hr⟩, hworks⟩ := hfinds
  refine ⟨names, histories, ?_, ?_, hagree⟩
  · rw [hr.names_result, (hanswers _ hworks).1]
    rfl
  · rintro τ s' f' ⟨-, ⟨c', d', hr'⟩, hworks'⟩ n
    rw [hr'.history_result, (hanswers _ hworks').2 n]
    rfl

/-- Results of another test, with a time that has no number in base units. -/
def sampleOversized : Results where
  name := .text "m"
  version := .text "2"
  time := sampleResults.time
  current := [{ sampleOperation with time := ⟨.finite false 1 999999, .hour⟩ }]

/-- The sample after oversized results were reported, too. -/
def sampleFiled : Session :=
  let outcome := (sampleStore.report {} sampleResults).store.report ⟨sampleReported.storage, {}⟩
    sampleOversized
  ⟨outcome.storage, [outcome.store]⟩

/-- The rows of the sample, with the execution of the oversized results. -/
def sampleFiledRows : Database :=
  sampleRows.withExecution ⟨2, .text "2026-01-01 12:00:00.000000", .text "m", .text "2"⟩

theorem sampleOversized_isLegible : sampleOversized.IsLegible := by
  refine ⟨⟨_, rfl⟩, sample_isPlain.wall, sample_isPlain.year, ?_⟩
  intro e he
  rw [List.mem_singleton.mp he]
  constructor
  · show Decimal.inRange 1 999999 = true
    decide +kernel
  · show Decimal.inRange 3 2 = true
    decide +kernel

theorem filings_sampleFiled : Filings ⟨{}, []⟩ sampleFiled := by
  have hfirst : Filing ⟨{}, [] ++ sampleStore :: []⟩ sampleReported :=
    .report {} sample_isPlain.isLegible
  have hsecond : Filing ⟨sampleReported.storage,
      [] ++ (sampleStore.report {} sampleResults).store :: []⟩ sampleFiled :=
    .report {} sampleOversized_isLegible
  exact .tail (.tail (.single (.start sampleStore.path)) hfirst) hsecond

/-- A report of oversized results fails, and both queries show its execution. -/
theorem queries_agree_sample :
    IsBlank ⟨{}, []⟩ ∧ Filings ⟨{}, []⟩ sampleFiled ∧
      sampleFiled.Finds sampleStore {} sampleFiledRows ∧
      (sampleStore.names ⟨sampleFiled.storage, {}⟩).result = .ok ["m", "n"] ∧
      ∃ histories,
        (∀ n, (sampleStore.history ⟨sampleFiled.storage, {}⟩ (.text n)).result
          = .ok (histories n)) ∧
        sampleFiledRows.QueriesAgree ["m", "n"] histories := by
  have hid : sampleFiled.storage.fileId? sampleStore.path = some 0 := by decide +kernel
  have hfinds : sampleFiled.Finds sampleStore {} sampleFiledRows :=
    finds_of_fileId? sample_isOf.2 hid (by decide +kernel)
  have hnames : (sampleStore.names ⟨sampleFiled.storage, {}⟩).result = .ok ["m", "n"] := by
    obtain ⟨-, ⟨c, d, hr⟩, hworks⟩ := hfinds
    have htexts : sampleFiledRows.executions.map (·.name) = ["n", "m"].map Cell.text := rfl
    have hsorted : sortTexts ["n", "m"] = ["m", "n"] := by cbv
    rw [hr.names_result, testNames_eq_ok htexts hworks, hsorted]
    rfl
  obtain ⟨names, histories, hanswer, hhistories, hagree⟩ :=
    queries_agree isBlank_empty filings_sampleFiled hfinds
  obtain rfl : ["m", "n"] = names := Except.ok.inj (hnames.symm.trans hanswer)
  exact ⟨isBlank_empty, filings_sampleFiled, hfinds, hnames, histories,
    hhistories _ _ _ hfinds, hagree⟩

end Session

end PerfLedger
