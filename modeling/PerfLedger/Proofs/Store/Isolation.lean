import PerfLedger.Database.Schema
import PerfLedger.Proofs.Results.Baselines
import PerfLedger.Proofs.Store.Fetch
import PerfLedger.Proofs.Store.Integrity
import PerfLedger.Proofs.Store.Sorting

/-!
# One test among others

The tables hold the rows of all tests, and any of them may hold what no store would write. The
history of a test depends on the rows of that test alone (`AgreesOn.history_eq`): it cannot be read
if and only if one of them cannot (`exists_history_error`), and otherwise it shows each of its
executions with all their operations (`lists_of_history`).

A row cannot be read if its time is no stamp or a measure no number, or if one of its texts is no
UTF-8, whichever column that is in. What the label of an operation says does not matter
(`history_error_not_only_unparsable`).

Nothing but the version of an execution has to be there for that, and it is in every database that
a session can have (`history_isolated`).
-/

namespace PerfLedger

open Database

/-! ## Cells -/

namespace Cell

/-- A cell has bytes that are no text. -/
def IsGarbled (c : Cell) : Prop :=
  ∃ g, c = .garbled g

/-- What a cell holds is fetched from the column, and rejected by the reader for it. -/
def IsRejected {ε α : Type} (c : Cell) (column : String) (read : Value → Except ε α) : Prop :=
  ∃ v f, c.fetch column = .ok v ∧ read v = .error f

theorem exists_fetch_error (c : Cell) (column : String) :
    (∃ f, c.fetch column = .error f) ↔ c.IsGarbled := by
  simp only [fetch_eq_error, IsGarbled]
  exact ⟨fun ⟨_, g, hg, _⟩ => ⟨g, hg⟩, fun ⟨g, hg⟩ => ⟨_, g, hg, rfl⟩⟩

theorem exists_fetch {c : Cell} (h : ¬c.IsGarbled) (column : String) :
    ∃ v, c.fetch column = .ok v := by
  cases hv : c.fetch column with
  | ok v => exact ⟨v, rfl⟩
  | error f => exact absurd ((exists_fetch_error c column).mp ⟨f, hv⟩) h

end Cell

/-! ## Rows of operations -/

namespace FetchedOperation

/-- The operation of a row, under the label that the row has. -/
def entry (o : FetchedOperation) : Except FieldFault (Option String × Operation) :=
  o.toOperation.map fun operation => (o.version.toOptionalText, operation)

theorem addTo_eq (r : Results) (o : FetchedOperation) : addTo r o = o.entry.map r.add := by
  unfold addTo entry
  cases o.toOperation with
  | error f => rfl
  | ok operation =>
    simp only [bind, Except.bind, Except.map, Results.add]
    cases o.version.toOptionalText <;> rfl

/-- Operations are added in turn once all of them are read. -/
theorem foldlM_addTo_eq (rows : List FetchedOperation) (r : Results) :
    rows.foldlM addTo r = (rows.mapM entry).map fun es => es.foldl Results.add r := by
  induction rows generalizing r with
  | nil => rfl
  | cons o rows ih =>
    rw [List.foldlM_cons, List.mapM_cons, addTo_eq]
    cases ho : o.entry with
    | error f => rfl
    | ok e =>
      show rows.foldlM addTo (r.add e) = _
      rw [ih]
      cases rows.mapM entry <;> rfl

theorem exists_entry_error (o : FetchedOperation) : (∃ f, o.entry = .error f) ↔
    (∃ f, o.time.toDecimalField "executionTimeMs" = .error f) ∨
      ∃ f, o.memory.toDecimalField "heapUsageBytes" = .error f := by
  unfold entry toOperation
  cases o.time.toDecimalField "executionTimeMs" with
  | error f => simp [bind, Except.bind, Except.map]
  | ok t =>
    cases o.memory.toDecimalField "heapUsageBytes" with
    | error f => simp [bind, Except.bind, Except.map]
    | ok m => simp [bind, Except.bind, Except.map, pure, Except.pure]

end FetchedOperation

namespace OperationRow

/-- A row cannot be read: one of its texts is garbled, or one of its measures is no number. -/
inductive IsMalformed (o : OperationRow) : Prop where
  | garbled (cell : o.version.IsGarbled ∨ o.time.IsGarbled ∨ o.memory.IsGarbled)
  | time (rejected : o.time.IsRejected "executionTimeMs" (Value.toDecimalField "executionTimeMs"))
  | memory
      (rejected : o.memory.IsRejected "heapUsageBytes" (Value.toDecimalField "heapUsageBytes"))

theorem exists_fetch_error (o : OperationRow) : (∃ f, o.fetch = .error f) ↔
    o.version.IsGarbled ∨ o.time.IsGarbled ∨ o.memory.IsGarbled := by
  rw [← o.version.exists_fetch_error "version", ← o.time.exists_fetch_error "executionTimeMs",
    ← o.memory.exists_fetch_error "heapUsageBytes"]
  unfold fetch
  cases o.version.fetch "version" with
  | error f => simp [bind, Except.bind]
  | ok v =>
    cases o.time.fetch "executionTimeMs" with
    | error f => simp [bind, Except.bind]
    | ok t =>
      cases o.memory.fetch "heapUsageBytes" with
      | error f => simp [bind, Except.bind]
      | ok m => simp [bind, Except.bind, pure, Except.pure]

/-- A row is malformed if and only if it cannot be fetched or what is fetched is no operation. -/
theorem isMalformed_iff (o : OperationRow) : o.IsMalformed ↔
    (∃ f, o.fetch = .error f) ∨ ∃ x, o.fetch = .ok x ∧ ∃ f, x.entry = .error f := by
  constructor
  · intro h
    by_cases hgarbled : o.version.IsGarbled ∨ o.time.IsGarbled ∨ o.memory.IsGarbled
    · exact .inl (o.exists_fetch_error.mpr hgarbled)
    · simp only [not_or] at hgarbled
      obtain ⟨v, hv⟩ := Cell.exists_fetch hgarbled.1 "version"
      obtain ⟨t, ht⟩ := Cell.exists_fetch hgarbled.2.1 "executionTimeMs"
      obtain ⟨m, hm⟩ := Cell.exists_fetch hgarbled.2.2 "heapUsageBytes"
      refine .inr ⟨⟨v, t, m⟩, fetch_eq_ok.mpr ⟨hv, ht, hm⟩, ?_⟩
      rw [FetchedOperation.exists_entry_error]
      cases h with
      | garbled cell => exact absurd cell (by simp [hgarbled])
      | time rejected =>
        obtain ⟨t', f, ht', hf⟩ := rejected
        obtain rfl := Except.ok.inj (ht.symm.trans ht')
        exact .inl ⟨f, hf⟩
      | memory rejected =>
        obtain ⟨m', f, hm', hf⟩ := rejected
        obtain rfl := Except.ok.inj (hm.symm.trans hm')
        exact .inr ⟨f, hf⟩
  · rintro (hfetch | ⟨x, hx, hentry⟩)
    · exact .garbled (o.exists_fetch_error.mp hfetch)
    · obtain ⟨-, ht, hm⟩ := fetch_eq_ok.mp hx
      rcases x.exists_entry_error.mp hentry with ⟨f, hf⟩ | ⟨f, hf⟩
      · exact .time ⟨_, f, ht, hf⟩
      · exact .memory ⟨_, f, hm, hf⟩

/-- Rows with the same cells are fetched alike, whatever their numbers. -/
theorem fetch_congr {o p : OperationRow} (h : o.cells = p.cells) : o.fetch = p.fetch := by
  simp only [cells, List.cons.injEq, and_true] at h
  obtain ⟨-, hv, ht, hm⟩ := h
  rw [fetch, fetch, hv, ht, hm]

end OperationRow

/-! ## Executions -/

theorem Results.Gathered.sortBaselines {es : List (Option String × Operation)} {r : Results}
    (h : Results.Gathered es r) :
    Results.Gathered es { r with baselines := Database.sortBaselines r.baselines } := by
  refine ⟨h.current, ?_, ?_, ?_⟩
  · exact ((List.mergeSort_perm r.baselines _).map (·.1)).nodup_iff.mpr h.nodup
  · intro l
    rw [← h.mem_labels]
    simp only [List.mem_map, mem_sortBaselines]
  · exact fun e he => h.baselines e (mem_sortBaselines.mp he)

namespace Database

variable {db db' : Database} {n : String} {e : ExecutionRow} {r : Results}

/-- An execution cannot be read: one of its texts is garbled, its time is no stamp, or one of its
operations cannot be read. -/
inductive IsSpoiled (db : Database) (e : ExecutionRow) : Prop where
  | garbled (cell : e.time.IsGarbled ∨ e.version.IsGarbled)
  | time (rejected : e.time.IsRejected "executionTime" Value.toMomentField)
  | operation {o : OperationRow} (mem : o ∈ db.operations) (own : o.execution = e.id)
      (malformed : o.IsMalformed)

/-- The reader for times rejects the time of an execution, or the reader for decimals rejects any
cell of one of its operations. -/
def IsUnparsable (db : Database) (e : ExecutionRow) : Prop :=
  e.time.IsRejected "executionTime" Value.toMomentField ∨
    ∃ o ∈ db.operations, o.execution = e.id ∧
      ∃ c ∈ o.cells, ∃ column, c.IsRejected column (Value.toDecimalField column)

/-- The results that an execution is shown as: its version and time, and all its operations, in the
order of their numbers and under their labels. -/
structure Shows (db : Database) (n : String) (e : ExecutionRow) (r : Results) : Prop where
  name : r.name = .text n
  version : ∃ v, e.version.fetch "targetVersion" = .ok v ∧ r.version = .text v.display
  time : ∃ v, e.time.fetch "executionTime" = .ok v ∧ v.toMomentField = .ok r.time
  operations : ∃ rows es, rows.Perm (db.operations.filter fun o => o.execution == e.id) ∧
    rows.Pairwise (fun o p => o.number < p.number) ∧
    List.Forall₂ (fun (o : OperationRow) (p : Option String × Operation) =>
      ∃ x, o.fetch = .ok x ∧ p.1 = x.version.toOptionalText ∧ x.toOperation = .ok p.2) rows es ∧
    Results.Gathered es r
  ascending : (r.baselines.map (·.1)).Pairwise (· < ·)

/-- What is fetched of a cell that holds something. -/
theorem toTextField_of_fetch {c : Cell} (hc : c ≠ .null) {column : String} {v : Value}
    (hv : c.fetch column = .ok v) (field : String) : v.toTextField field = .ok v.display := by
  cases c with
  | null => exact absurd rfl hc
  | garbled g => exact absurd hv (by simp [Cell.fetch])
  | _ =>
    rw [← Except.ok.inj hv]
    rfl

/-- The operations of an execution are read in the order of their numbers. -/
theorem IsRegular.operationsOf_spec (h : db.IsRegular) (id : Int) :
    (db.operationsOf id).Perm (db.operations.filter fun o => o.execution == id) ∧
      (db.operationsOf id).Pairwise fun o p => o.number < p.number := by
  have hperm := List.mergeSort_perm (db.operations.filter fun o => o.execution == id)
    fun o p => decide (o.number ≤ p.number)
  refine ⟨hperm, ?_⟩
  have hsorted : (db.operationsOf id).Pairwise fun o p => decide (o.number ≤ p.number) = true := by
    refine List.pairwise_mergeSort ?_ ?_ _
    · intro o p q hop hpq
      rw [decide_eq_true_eq] at hop hpq ⊢
      exact Int.le_trans hop hpq
    · intro o p
      rw [Bool.or_eq_true, decide_eq_true_eq, decide_eq_true_eq]
      exact Int.le_total _ _
  have hnodup : ((db.operationsOf id).map (·.number)).Nodup :=
    ((hperm.map _).nodup_iff).mpr (h.nodup_operations.sublist (List.filter_sublist.map _))
  rw [List.Nodup, List.pairwise_map] at hnodup
  exact (hsorted.and hnodup).imp fun ⟨hle, hne⟩ =>
    Int.lt_iff_le_and_ne.mpr ⟨of_decide_eq_true hle, hne⟩

theorem exists_operations_error (db : Database) (id : Int) :
    ((∃ f, (db.operationsOf id).mapM OperationRow.fetch = .error f) ∨
      ∃ xs, (db.operationsOf id).mapM OperationRow.fetch = .ok xs ∧
        ∃ f, xs.mapM FetchedOperation.entry = .error f) ↔
      ∃ o ∈ db.operations, o.execution = id ∧ o.IsMalformed := by
  simp only [exists_mapM_mapM_error, ← OperationRow.isMalformed_iff, operationsOf,
    List.mem_mergeSort, List.mem_filter, beq_iff_eq, and_assoc]

/-- The results of an execution, as they are read once its row was fetched. -/
theorem resultsOf_fetched {x : FetchedExecution} (hv : e.version ≠ .null) (hx : e.fetch = .ok x)
    (n : String) : db.resultsOf {} (.text n) 0 x = (do
      let time ← x.time.toMomentField.mapError StoreFault.time
      let rows ← ((db.operationsOf e.id).mapM OperationRow.fetch).mapError StoreFault.database
      let es ← (rows.mapM FetchedOperation.entry).mapError StoreFault.field
      let r := es.foldl Results.add { name := .text n, version := .text x.version.display, time }
      return { r with baselines := sortBaselines r.baselines }) := by
  obtain ⟨hid, -, hversion⟩ := ExecutionRow.fetch_eq_ok.mp hx
  have hrows : db.fetchOperations {} 0 e.id = (db.operationsOf e.id).mapM OperationRow.fetch :=
    fetchOperations_eq rfl 0 e.id
  simp only [resultsOf, toTextField_of_fetch hv hversion, hid, hrows,
    FetchedOperation.foldlM_addTo_eq]
  show (x.time.toMomentField.mapError StoreFault.time >>= _) = _
  refine bind_congr fun time => bind_congr fun rows => ?_
  cases rows.mapM FetchedOperation.entry <;> rfl

theorem exists_resultsOf_error {x : FetchedExecution} (hv : e.version ≠ .null)
    (hx : e.fetch = .ok x) (n : String) :
    (∃ f, db.resultsOf {} (.text n) 0 x = .error f) ↔
      (∃ f, x.time.toMomentField = .error f) ∨
        ∃ o ∈ db.operations, o.execution = e.id ∧ o.IsMalformed := by
  rw [resultsOf_fetched hv hx, ← exists_operations_error]
  cases x.time.toMomentField with
  | error f => simp [Except.mapError, bind, Except.bind]
  | ok t =>
    cases (db.operationsOf e.id).mapM OperationRow.fetch with
    | error f => simp [Except.mapError, bind, Except.bind]
    | ok rows =>
      cases hes : rows.mapM FetchedOperation.entry with
      | error f => simp [hes, Except.mapError, bind, Except.bind]
      | ok es => simp [hes, Except.mapError, bind, Except.bind, pure, Except.pure]

theorem ExecutionRow.exists_fetch_error (e : ExecutionRow) : (∃ f, e.fetch = .error f) ↔
    e.time.IsGarbled ∨ e.version.IsGarbled := by
  rw [← e.time.exists_fetch_error "executionTime", ← e.version.exists_fetch_error "targetVersion"]
  unfold ExecutionRow.fetch
  cases e.time.fetch "executionTime" with
  | error f => simp [bind, Except.bind]
  | ok t =>
    cases e.version.fetch "targetVersion" with
    | error f => simp [bind, Except.bind]
    | ok v => simp [bind, Except.bind, pure, Except.pure]

/-- An execution is spoiled if and only if it cannot be fetched, or its results cannot be read. -/
theorem isSpoiled_iff (hv : e.version ≠ .null) (n : String) : db.IsSpoiled e ↔
    (∃ f, e.fetch = .error f) ∨
      ∃ x, e.fetch = .ok x ∧ ∃ f, db.resultsOf {} (.text n) 0 x = .error f := by
  constructor
  · intro h
    by_cases hgarbled : e.time.IsGarbled ∨ e.version.IsGarbled
    · exact .inl ((ExecutionRow.exists_fetch_error e).mpr hgarbled)
    · rw [not_or] at hgarbled
      obtain ⟨t, ht⟩ := Cell.exists_fetch hgarbled.1 "executionTime"
      obtain ⟨v, hversion⟩ := Cell.exists_fetch hgarbled.2 "targetVersion"
      have hx : e.fetch = .ok ⟨e.id, t, v⟩ := ExecutionRow.fetch_eq_ok.mpr ⟨rfl, ht, hversion⟩
      refine .inr ⟨_, hx, (exists_resultsOf_error hv hx n).mpr ?_⟩
      cases h with
      | garbled cell => exact absurd cell (by simp [hgarbled])
      | time rejected =>
        obtain ⟨t', f, ht', hf⟩ := rejected
        obtain rfl := Except.ok.inj (ht.symm.trans ht')
        exact .inl ⟨f, hf⟩
      | operation mem own malformed => exact .inr ⟨_, mem, own, malformed⟩
  · rintro (hfetch | ⟨x, hx, herror⟩)
    · exact .garbled ((ExecutionRow.exists_fetch_error e).mp hfetch)
    · obtain ⟨-, ht, -⟩ := ExecutionRow.fetch_eq_ok.mp hx
      rcases (exists_resultsOf_error hv hx n).mp herror with ⟨f, hf⟩ | ⟨o, mem, own, malformed⟩
      · exact .time ⟨_, f, ht, hf⟩
      · exact .operation mem own malformed

/-- An execution is not spoiled if all that is read of it can be. -/
theorem not_isSpoiled {v : Value} {m : Moment} (hversion : ¬e.version.IsGarbled)
    (htime : e.time.fetch "executionTime" = .ok v) (hm : v.toMomentField = .ok m)
    (hoperations : ∀ o ∈ db.operations, ∃ x p, o.fetch = .ok x ∧ x.toOperation = .ok p) :
    ¬db.IsSpoiled e := by
  intro hspoiled
  cases hspoiled with
  | garbled cell =>
    rcases cell with hgarbled | hgarbled
    · obtain ⟨f, hf⟩ := (e.time.exists_fetch_error "executionTime").mpr hgarbled
      exact absurd (htime.symm.trans hf) (by simp)
    · exact hversion hgarbled
  | time rejected =>
    obtain ⟨v', f, hv', hf⟩ := rejected
    obtain rfl := Except.ok.inj (htime.symm.trans hv')
    exact absurd (hm.symm.trans hf) (by simp)
  | @operation o mem own malformed =>
    obtain ⟨x, p, hx, hp⟩ := hoperations o mem
    rcases o.isMalformed_iff.mp malformed with ⟨f, hf⟩ | ⟨y, hy, f, hf⟩
    · exact absurd (hx.symm.trans hf) (by simp)
    · obtain rfl := Except.ok.inj (hx.symm.trans hy)
      simp [FetchedOperation.entry, hp, Except.map] at hf

/-- An execution that can be read is shown with all its operations. -/
theorem IsRegular.shows_of_resultsOf (hdb : db.IsRegular) (he : e ∈ db.executions)
    {x : FetchedExecution} (hx : e.fetch = .ok x) (h : db.resultsOf {} (.text n) 0 x = .ok r) :
    db.Shows n e r := by
  have hv : e.version ≠ .null := (hdb.execution_cells e he).2.2.ne_null
  obtain ⟨-, ht, hversion⟩ := ExecutionRow.fetch_eq_ok.mp hx
  obtain ⟨hperm, hnumbers⟩ := hdb.operationsOf_spec e.id
  simp only [resultsOf_fetched hv hx, bind_eq_ok, mapError_eq_ok, pure_eq_ok] at h
  obtain ⟨t, htime, rows, hrows, es, hes, rfl⟩ := h
  have hg := Results.gathered_foldl (r := ⟨.text n, .text x.version.display, t, [], []⟩) rfl rfl es
  obtain ⟨hname, hver, htime'⟩ := Results.foldl_add_frame
    ⟨.text n, .text x.version.display, t, [], []⟩ es
  refine ⟨hname, ⟨_, hversion, hver⟩, ⟨_, ht, htime.trans (congrArg _ htime'.symm)⟩,
    ⟨_, es, hperm, hnumbers, ?_, hg.sortBaselines⟩, pairwise_sortBaselines hg.nodup⟩
  refine forall₂_through (mapM_eq_ok.mp hrows) (mapM_eq_ok.mp hes) ?_
  intro o y p hy hp
  obtain ⟨operation, hop, rfl⟩ := map_eq_ok.mp hp
  exact ⟨y, hy, rfl, hop⟩

/-! ## Histories -/

/-- The executions with a name. -/
def rowsNamed (db : Database) (n : String) : List ExecutionRow :=
  db.executions.filter fun e => e.name == .text n

theorem mem_rowsNamed : e ∈ db.rowsNamed n ↔ e ∈ db.executions ∧ e.name = .text n := by
  rw [rowsNamed, List.mem_filter, beq_iff_eq]

theorem executionsNamed_text (db : Database) (n : String) :
    db.executionsNamed (.text n)
      = (db.rowsNamed n).mergeSort fun a b => (orderExecutions b a).isLE := by
  have hfilter (e : ExecutionRow) :
      (Cell.text n != .null && e.name == Cell.text n) = (e.name == Cell.text n) := by
    simp
  simp only [executionsNamed, Cell.inTextColumn, rowsNamed, hfilter]

/-- A history with one entry for each execution with the name. -/
structure Lists (db : Database) (n : String) (h : History) : Prop where
  results : ∃ rows : List ExecutionRow, rows.Perm (db.rowsNamed n) ∧
    List.Forall₂ (db.Shows n) rows h.results
  ascending : h.versions.Pairwise (· < ·)
  mem_versions : ∀ l, l ∈ h.versions ↔ ∃ r ∈ h.results, l ∈ r.baselines.map (·.1)

/-- **A history cannot be read if and only if an execution with its name cannot.** -/
theorem exists_history_error (hv : ∀ e ∈ db.executions, e.version ≠ .null) {a : Access}
    (ha : a.failing = none) (n : String) :
    (∃ f, db.history a (.text n) = .error f) ↔
      ∃ e ∈ db.executions, e.name = .text n ∧ db.IsSpoiled e := by
  have hmem (e : ExecutionRow) :
      e ∈ db.executionsNamed (.text n) ↔ e ∈ db.executions ∧ e.name = .text n := by
    rw [executionsNamed_text, List.mem_mergeSort, mem_rowsNamed]
  have hstages : (∃ f, db.history a (.text n) = .error f) ↔
      (∃ f, (db.executionsNamed (.text n)).mapM ExecutionRow.fetch = .error f) ∨
        ∃ xs, (db.executionsNamed (.text n)).mapM ExecutionRow.fetch = .ok xs ∧
          ∃ f, xs.mapM (db.resultsOf {} (.text n) 0) = .error f := by
    rw [history_eq ha]
    simp only [exists_bind_error, exists_mapError_error, mapError_eq_ok, pure, Except.pure,
      reduceCtorEq, exists_false, and_false, or_false]
  rw [hstages, exists_mapM_mapM_error]
  constructor
  · rintro ⟨e, he, herror⟩
    obtain ⟨he, hname⟩ := (hmem e).mp he
    exact ⟨e, he, hname, (isSpoiled_iff (hv e he) n).mpr herror⟩
  · rintro ⟨e, he, hname, hspoiled⟩
    exact ⟨e, (hmem e).mpr ⟨he, hname⟩, (isSpoiled_iff (hv e he) n).mp hspoiled⟩

/-- **A history that can be read shows each execution with its name.** -/
theorem IsRegular.lists_of_history (hdb : db.IsRegular) {a : Access} (ha : a.failing = none)
    {h : History} (hok : db.history a (.text n) = .ok h) : db.Lists n h := by
  simp only [history_eq ha, bind_eq_ok, mapError_eq_ok, pure_eq_ok] at hok
  obtain ⟨xs, hxs, results, hresults, rfl⟩ := hok
  refine ⟨⟨db.executionsNamed (.text n), ?_, ?_⟩, pairwise_sortTexts _, ?_⟩
  · rw [executionsNamed_text]
    exact List.mergeSort_perm _ _
  · have hall := forall₂_through (mapM_eq_ok.mp hxs) (mapM_eq_ok.mp hresults)
      fun e x r hx hr => (⟨x, hx, hr⟩ : ∃ x, e.fetch = .ok x ∧
        db.resultsOf {} (.text n) 0 x = .ok r)
    refine List.forall₂_iff_zip.mpr ⟨hall.length_eq, ?_⟩
    intro e r her
    have he : e ∈ db.executions := by
      have := (List.of_mem_zip her).1
      rw [executionsNamed_text, List.mem_mergeSort, mem_rowsNamed] at this
      exact this.1
    obtain ⟨x, hx, hr⟩ := (List.forall₂_iff_zip.mp hall).2 her
    exact hdb.shows_of_resultsOf he hx hr
  · intro l
    rw [mem_sortTexts, List.mem_flatMap]

/-! ## Two databases -/

/-- Two databases with the same rows for one test. Operations need not have the same numbers, only
the same order. -/
structure AgreesOn (n : String) (db db' : Database) : Prop where
  executions : db.rowsNamed n = db'.rowsNamed n
  operations : ∀ e ∈ db.rowsNamed n,
    (db.operationsOf e.id).map OperationRow.cells = (db'.operationsOf e.id).map OperationRow.cells

/-- **The history of a test depends on its own rows alone.** -/
theorem AgreesOn.history_eq (h : db.AgreesOn n db') {a a' : Access} (ha : a.failing = none)
    (ha' : a'.failing = none) : db.history a (.text n) = db'.history a' (.text n) := by
  have hnamed : db.executionsNamed (.text n) = db'.executionsNamed (.text n) := by
    rw [executionsNamed_text, executionsNamed_text, h.executions]
  have hrows : ∀ e ∈ db.executionsNamed (.text n),
      (db.operationsOf e.id).mapM OperationRow.fetch
        = (db'.operationsOf e.id).mapM OperationRow.fetch := by
    intro e he
    rw [executionsNamed_text, List.mem_mergeSort] at he
    refine mapM_of_forall₂ ?_
    have hcells := h.operations e he
    rw [← List.forall₂_eq_eq_eq, List.forall₂_map_left_iff, List.forall₂_map_right_iff] at hcells
    exact hcells.imp fun _ _ => OperationRow.fetch_congr
  rw [Database.history_eq ha, Database.history_eq ha', ← hnamed]
  cases hxs : (db.executionsNamed (.text n)).mapM ExecutionRow.fetch with
  | error f => rfl
  | ok xs =>
    have hread : ∀ x ∈ xs, db.resultsOf {} (.text n) 0 x = db'.resultsOf {} (.text n) 0 x := by
      intro x hx
      obtain ⟨e, he, hex⟩ := exists_of_forall₂_right (mapM_eq_ok.mp hxs) hx
      obtain ⟨hid, -, -⟩ := ExecutionRow.fetch_eq_ok.mp hex
      have hfetch : db.fetchOperations {} 0 x.id = db'.fetchOperations {} 0 x.id := by
        rw [fetchOperations_eq rfl, fetchOperations_eq rfl, hid, hrows e he]
      rw [resultsOf, resultsOf, hfetch]
    simp only [Except.mapError, bind, Except.bind, mapM_congr hread]

end Database

/-! ## Stores -/

namespace Session

variable {σ : Session} {s : Store} {f : Failures} {db : Database}

/-- A store of a session, or a new one, gets as far as a database, and no statement fails. -/
structure Finds (σ : Session) (s : Store) (f : Failures) (db : Database) : Prop where
  store : s ∈ σ.stores ∨ ∃ p, s = .new p
  reaches : ∃ c d, s.Reaches ⟨σ.storage, f⟩ c d db
  statement : f.statement = none

theorem IsRegular.of_finds (hσ : σ.IsRegular) (h : σ.Finds s f db) : db.IsRegular := by
  obtain ⟨hs, ⟨c, d, hr⟩, -⟩ := h
  rcases hs with hs | ⟨p, rfl⟩
  · obtain ⟨-, -, -, l, -, hdb⟩ := hr.spec hσ.sound.storage (hσ.sound.stores s hs)
    exact hσ.databaseAt hs hdb
  · obtain ⟨-, -, -, l, -, hdb⟩ := hr.spec hσ.sound.storage (Store.new_isSound p _)
    have hstarted : IsRegular ⟨σ.storage, σ.stores ++ [.new p]⟩ := hσ.act (.start p)
    exact hstarted.databaseAt (List.mem_append_right _ List.mem_cons_self) hdb

/-- A history cannot be read through a store if and only if an execution with its name cannot. -/
theorem IsRegular.exists_history_error (hσ : σ.IsRegular) (h : σ.Finds s f db) (n : String) :
    (∃ e, (s.history ⟨σ.storage, f⟩ (.text n)).result = .error e) ↔
      ∃ e ∈ db.executions, e.name = .text n ∧ db.IsSpoiled e := by
  have hregular := hσ.of_finds h
  obtain ⟨-, ⟨c, d, hr⟩, hworks⟩ := h
  rw [hr.history_result, exists_mapError_error]
  exact Database.exists_history_error
    (fun e he => (hregular.execution_cells e he).2.2.ne_null) hworks n

/-- A new store finds the database in the file that its path leads to. -/
theorem finds_of_fileId? {p : Path} {id : Nat}
    (hp : p.toText ≠ Connection.memoryPath) (hid : σ.storage.fileId? p = some id)
    (hdb : σ.storage.databaseAt id = .ok db) : σ.Finds (.new p) {} db := by
  have hat : (Store.new p).IsAt p.place σ.storage :=
    Store.isAt_of_connection_eq_none ⟨rfl, hp⟩ rfl
  have hrows : σ.storage.rowsAt p.place = .ok db := by
    rw [Storage.rowsAt_of_file (Disk.fileId?_eq_some.mp hid).2]
    exact hdb
  exact ⟨.inr ⟨p, rfl⟩, hat.exists_reaches (h := ⟨σ.storage, {}⟩) hrows
    (Store.serves_of_fileId? hp hid), rfl⟩

/--
**The rows of one test neither break nor change the history of another.**

Let a session begin without a database and get somewhere by any acts, and let a store find a
database there. The history of a name cannot be read through it if and only if an execution with
that name has a time that is no stamp, or an operation with a measure that is no number, or one of
the texts that are read of them is no UTF-8; and otherwise the history has one entry for each
execution with that name, with all its operations.

A store of another session that finds the same rows for that name answers the same, or fails for the
same cause, whatever other rows there are.
-/
theorem history_isolated {σ₀ : Session} (hblank : σ₀.IsBlank) (hacts : Acts σ₀ σ)
    (hfinds : σ.Finds s f db) (n : String) :
    ((∃ e, (s.history ⟨σ.storage, f⟩ (.text n)).result = .error e) ↔
        ∃ e ∈ db.executions, e.name = .text n ∧ db.IsSpoiled e) ∧
      (∀ h, (s.history ⟨σ.storage, f⟩ (.text n)).result = .ok h → db.Lists n h) ∧
      ∀ (τ : Session) (s' : Store) (f' : Failures) (db' : Database),
        τ.Finds s' f' db' → db.AgreesOn n db' →
        (s.history ⟨σ.storage, f⟩ (.text n)).result.mapError StoreError.cause?
          = (s'.history ⟨τ.storage, f'⟩ (.text n)).result.mapError StoreError.cause? := by
  have hσ := hblank.isRegular.acts hacts
  refine ⟨hσ.exists_history_error hfinds n, ?_⟩
  have hregular := hσ.of_finds hfinds
  obtain ⟨-, ⟨c, d, hr⟩, hworks⟩ := hfinds
  have hworks : (Host.access ⟨σ.storage, f⟩ d c).failing = none := hworks
  rw [hr.history_result]
  constructor
  · intro h hok
    exact hregular.lists_of_history hworks (mapError_eq_ok.mp hok)
  · rintro τ s' f' db' ⟨-, ⟨c', d', hr'⟩, hworks'⟩ hagrees
    have hworks' : (Host.access ⟨τ.storage, f'⟩ d' c').failing = none := hworks'
    rw [hr'.history_result, hagrees.history_eq hworks hworks']
    cases db'.history _ (.text n) <;> rfl

/-- The rows of the sample. -/
def sampleRows : Database where
  executions := [⟨1, .text "2026-01-01 12:00:00.000000", .text "n", .text "2"⟩]
  operations := [⟨1, 1, .null, .text "1500.0", .text "307200"⟩,
    ⟨2, 1, .text "1", .text "1500.0", .text "307200"⟩,
    ⟨3, 1, .text "1", .text "1500.0", .text "307200"⟩]
  lastId := 1

/-- The rows of the sample, with an execution of another test whose time is no stamp. -/
def sampleSpoiledRows : Database :=
  sampleRows.withExecution ⟨2, .text "soon", .text "m", .text "3"⟩

/-- The history of the sample is the same with an execution of another test that cannot be read. -/
theorem history_isolated_sample :
    sampleSpoiled.Finds sampleStore {} sampleSpoiledRows ∧
      sampleReported.Finds sampleStore {} sampleRows ∧ sampleSpoiledRows.AgreesOn "n" sampleRows ∧
      (sampleStore.history ⟨sampleSpoiled.storage, {}⟩ (.text "n")).result.mapError
          StoreError.cause?
        = (sampleStore.history ⟨sampleReported.storage, {}⟩ (.text "n")).result.mapError
          StoreError.cause? ∧
      (∃ e, (sampleStore.history ⟨sampleSpoiled.storage, {}⟩ (.text "m")).result = .error e) := by
  have hspoiled := acts_sampleReported.trans acts_sampleSpoiled
  have hid : sampleSpoiled.storage.fileId? sampleStore.path = some 0 := by decide +kernel
  have hid' : sampleReported.storage.fileId? sampleStore.path = some 0 := by decide +kernel
  have hfinds : sampleSpoiled.Finds sampleStore {} sampleSpoiledRows :=
    finds_of_fileId? sample_isOf.2 hid (by decide +kernel)
  have hfinds' : sampleReported.Finds sampleStore {} sampleRows :=
    finds_of_fileId? sample_isOf.2 hid' (by decide +kernel)
  have hagrees : sampleSpoiledRows.AgreesOn "n" sampleRows :=
    ⟨by decide +kernel, fun _ _ => rfl⟩
  refine ⟨hfinds, hfinds', hagrees, ?_, ?_⟩
  · exact (history_isolated isBlank_empty hspoiled hfinds "n").2.2 _ _ _ _ hfinds' hagrees
  · refine (history_isolated isBlank_empty hspoiled hfinds "m").1.mpr ?_
    exact ⟨_, List.mem_append_right _ List.mem_cons_self, rfl,
      .time ⟨.text "soon", .mismatch "soon", rfl, by decide +kernel⟩⟩

/-- The rows of the sample, with an operation more whose label is no decimal, and with an execution
of another test that has a time, but a version of which the bytes are no text. -/
def sampleGarbledRows : Database where
  executions := sampleRows.executions ++
    [⟨2, .text "2026-01-01 12:00:00.000000", .text "m", .garbled ⟨[0xff], by decide +kernel⟩⟩]
  operations := sampleRows.operations ++
    [⟨4, 1, .text "abc", .text "1500.0", .text "307200"⟩]
  lastId := 2

/-- The sample after it was reported and these two rows were put in. -/
def sampleGarbled : Session :=
  let d := (Host.putOperation ⟨sampleReported.storage, {}⟩ sampleStore.path none
    [.value (.int 1), .value (.text "abc"), .value (.text "1500.0"), .value (.text "307200")]).1
  ⟨(Host.putExecution ⟨d, {}⟩ sampleStore.path
    [.value .null, .value (.text "2026-01-01 12:00:00.000000"), .value (.text "m"),
      .textBytes [0xff]]).1, sampleReported.stores⟩

theorem acts_sampleGarbled : Acts sampleReported sampleGarbled :=
  .tail (.single (.putOperation {} sampleStore.path none _)) (.putExecution {} sampleStore.path _)

/--
**Times and decimals alone do not decide whether a history can be read.**

An execution cannot be read for the bytes of its version, although its time is a stamp and it has no
operation. Another one can be read although an operation of it has a label that is no decimal.
-/
theorem history_error_not_only_unparsable :
    IsBlank ⟨{}, []⟩ ∧ Acts ⟨{}, []⟩ sampleGarbled ∧
      sampleGarbled.Finds sampleStore {} sampleGarbledRows ∧
      ((∃ e, (sampleStore.history ⟨sampleGarbled.storage, {}⟩ (.text "m")).result = .error e) ∧
        ¬∃ e ∈ sampleGarbledRows.executions, e.name = .text "m" ∧
          sampleGarbledRows.IsUnparsable e) ∧
      (∃ h, (sampleStore.history ⟨sampleGarbled.storage, {}⟩ (.text "n")).result = .ok h) ∧
        ∃ e ∈ sampleGarbledRows.executions, e.name = .text "n" ∧
          sampleGarbledRows.IsUnparsable e := by
  have hacts := acts_sampleReported.trans acts_sampleGarbled
  have hid : sampleGarbled.storage.fileId? sampleStore.path = some 0 := by decide +kernel
  have hfinds : sampleGarbled.Finds sampleStore {} sampleGarbledRows :=
    finds_of_fileId? sample_isOf.2 hid (by decide +kernel)
  have hfails := (isBlank_empty.isRegular.acts hacts).exists_history_error hfinds
  -- Both executions have the same time, and all operations are those of the first one.
  obtain ⟨m, hm⟩ : ∃ m, (Value.text "2026-01-01 12:00:00.000000").toMomentField = .ok m := by
    have hsome : (Value.text "2026-01-01 12:00:00.000000").toMomentField.toOption.isSome := by
      decide +kernel
    obtain ⟨m, hm⟩ := Option.isSome_iff_exists.mp hsome
    exact ⟨m, toOption_eq_some.mp hm⟩
  have hoperations : ∀ o ∈ sampleGarbledRows.operations,
      ∃ x p, o.fetch = .ok x ∧ x.toOperation = .ok p := by
    have hsome : ∀ o ∈ sampleGarbledRows.operations,
        (o.fetch.toOption.bind fun x => x.toOperation.toOption).isSome := by
      decide +kernel
    intro o ho
    obtain ⟨p, hp⟩ := Option.isSome_iff_exists.mp (hsome o ho)
    obtain ⟨x, hx, hp⟩ := Option.bind_eq_some_iff.mp hp
    exact ⟨x, p, toOption_eq_some.mp hx, toOption_eq_some.mp hp⟩
  refine ⟨isBlank_empty, hacts, hfinds, ⟨?_, ?_⟩, ?_, ?_⟩
  · refine (hfails "m").mpr ⟨_, List.mem_append_right _ List.mem_cons_self, rfl, ?_⟩
    exact .garbled (.inr ⟨_, rfl⟩)
  · rintro ⟨e, he, hname, hunparsable⟩
    rcases List.mem_append.mp he with he | he
    · rw [List.mem_singleton.mp he] at hname
      exact absurd hname (by decide)
    · obtain rfl := List.mem_singleton.mp he
      rcases hunparsable with ⟨v, f, hv, hf⟩ | ⟨o, ho, hown, -⟩
      · rw [← Except.ok.inj hv] at hf
        exact absurd (hm.symm.trans hf) (by simp)
      · revert hown
        revert o
        decide
  · cases hresult : (sampleStore.history ⟨sampleGarbled.storage, {}⟩ (.text "n")).result with
    | ok h => exact ⟨h, rfl⟩
    | error e =>
      obtain ⟨e, he, hname, hspoiled⟩ := (hfails "n").mp ⟨e, hresult⟩
      rcases List.mem_append.mp he with he | he
      · obtain rfl := List.mem_singleton.mp he
        have hversion : ¬(Cell.text "2").IsGarbled := fun ⟨g, hg⟩ => by cases hg
        exact absurd hspoiled (not_isSpoiled hversion rfl hm hoperations)
      · rw [List.mem_singleton.mp he] at hname
        exact absurd hname (by decide)
  · refine ⟨_, List.mem_append_left _ List.mem_cons_self, rfl, .inr ?_⟩
    refine ⟨_, List.mem_append_right _ List.mem_cons_self, rfl, .text "abc", ?_, "version", ?_⟩
    · simp [OperationRow.cells]
    · exact ⟨.text "abc", .signal .conversionSyntax, rfl, by decide +kernel⟩

end Session

end PerfLedger
