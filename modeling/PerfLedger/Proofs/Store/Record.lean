import PerfLedger.Store.Record
import PerfLedger.Proofs.Database.Insert

/-!
# What recording leaves in the tables

The rows that results stand for are one execution and, in a fixed order, one row for each operation:
those of the build under test without a label, then those of each baseline under its version
(`Results.labelled`). Recording either leaves the tables as they were or adds the execution and the
rows of some of these operations, from the first on (`Database.Gains`). Which of the two it is, and
how many operations there are, is decided by the first step that fails (`record_spec`).
-/

namespace PerfLedger

/-- The operations of results in the order in which they are stored, each with its label. -/
def Results.labelled (r : Results) : List (Value × Operation) :=
  r.current.map (fun o => (.null, o)) ++
    r.baselines.flatMap fun e => e.2.operations.map fun o => (e.2.version, o)

/-- Both measures of an operation can be converted to base units. -/
def Operation.Converts (o : Operation) : Prop :=
  (∃ t, o.time.inBaseUnits .duration = .ok t) ∧ ∃ m, o.memory.inBaseUnits .dataAmount = .ok m

/-- A row holds an operation of an execution under a label, with its measures in base units and in
fixed form. -/
structure OperationRow.Holds (id : Int) (e : Value × Operation) (row : OperationRow) : Prop where
  execution : row.execution = id
  version : ∃ label, Cell.ofValue 2 e.1 = .ok label ∧ row.version = label.inTextColumn
  time : ∃ t, e.2.time.inBaseUnits .duration = .ok t ∧ row.time = .text t.fixed
  memory : ∃ m, e.2.memory.inBaseUnits .dataAmount = .ok m ∧ row.memory = .text m.fixed

/-- A row holds the execution of results: the stamp of their time, their name and their version. -/
structure ExecutionRow.Holds (r : Results) (row : ExecutionRow) : Prop where
  time : ∃ t, Time.stamp r.time = .ok t ∧ row.time = .text t
  name : ∃ c, Cell.ofValue 2 r.name = .ok c ∧ row.name = c.inTextColumn
  version : ∃ c, Cell.ofValue 3 r.version = .ok c ∧ row.version = c.inTextColumn

namespace Database

/-- The tables after results were added to them, with the first `k` of their operations. The
execution has a number that none before it has, and its operations come behind all others. -/
structure Gains (r : Results) (k : Nat) (before after : Database) : Prop where
  le_length : k ≤ r.labelled.length
  added : ∃ row rows, row.Holds r ∧ row.id = before.lastId + 1 ∧
    (∀ e ∈ before.executions, e.id ≠ row.id) ∧
    List.Forall₂ (OperationRow.Holds row.id) (r.labelled.take k) rows ∧
    Follows before.operations rows ∧
    after = { executions := before.executions ++ [row]
              operations := before.operations ++ rows
              lastId := max before.lastId row.id }

theorem Gains.length_executions {r : Results} {k : Nat} {before after : Database}
    (h : Gains r k before after) : after.executions.length = before.executions.length + 1 := by
  obtain ⟨row, rows, -, -, -, -, -, rfl⟩ := h.added
  simp

theorem Gains.length_operations {r : Results} {k : Nat} {before after : Database}
    (h : Gains r k before after) : after.operations.length = before.operations.length + k := by
  obtain ⟨row, rows, -, -, -, hrows, -, rfl⟩ := h.added
  have hlen := hrows.length_eq
  rw [List.length_take_of_le h.le_length] at hlen
  simp [← hlen]

end Database

/-! ## Conversion -/

namespace StoredOperation

theorem ofOperation_eq_ok {label : Value} {o : Operation} {so : StoredOperation} :
    ofOperation label o = .ok so ↔
      ∃ t m, o.time.inBaseUnits .duration = .ok t ∧ o.memory.inBaseUnits .dataAmount = .ok m ∧
        so = ⟨label, t.fixed, m.fixed⟩ := by
  simp only [ofOperation, bind_eq_ok, pure_eq_ok]
  constructor
  · rintro ⟨t, ht, m, hm, rfl⟩
    exact ⟨t, m, ht, hm, rfl⟩
  · rintro ⟨t, m, ht, hm, rfl⟩
    exact ⟨t, ht, m, hm, rfl⟩

theorem ofOperations_eq_ok {label : Value} {os : List Operation} {sos : List StoredOperation} :
    ofOperations label os = .ok sos ↔
      List.Forall₂ (fun e so => ofOperation e.1 e.2 = .ok so) (os.map fun o => (label, o)) sos := by
  rw [ofOperations, mapM_eq_ok, List.forall₂_map_left_iff]

theorem ofBaselines_eq_ok {bs : List (String × Baseline)} {sos : List StoredOperation} :
    ofBaselines bs = .ok sos ↔
      List.Forall₂ (fun e so => ofOperation e.1 e.2 = .ok so)
        (bs.flatMap fun e => e.2.operations.map fun o => (e.2.version, o)) sos := by
  induction bs generalizing sos with
  | nil => simp [ofBaselines, eq_comm]
  | cons e es ih =>
    simp only [ofBaselines, bind_eq_ok, pure_eq_ok, ofOperations_eq_ok, ih, List.flatMap_cons,
      forall₂_append_left]
    exact ⟨fun ⟨as, has, bs, hbs, h⟩ => ⟨as, bs, has, hbs, h⟩,
      fun ⟨as, bs, has, hbs, h⟩ => ⟨as, has, bs, hbs, h⟩⟩

/-- All operations are converted, in the order in which they are stored, or none. -/
theorem ofResults_eq_ok {r : Results} {sos : List StoredOperation} :
    ofResults r = .ok sos ↔
      List.Forall₂ (fun e so => ofOperation e.1 e.2 = .ok so) r.labelled sos := by
  simp only [ofResults, bind_eq_ok, pure_eq_ok, ofOperations_eq_ok, ofBaselines_eq_ok,
    Results.labelled, forall₂_append_left]
  exact ⟨fun ⟨as, has, bs, hbs, h⟩ => ⟨as, bs, has, hbs, h⟩,
    fun ⟨as, bs, has, hbs, h⟩ => ⟨as, has, bs, hbs, h⟩⟩

theorem converts_of_ofResults {r : Results} {sos : List StoredOperation}
    (h : ofResults r = .ok sos) : ∀ e ∈ r.labelled, e.2.Converts := by
  intro e he
  obtain ⟨so, -, hso⟩ := exists_of_forall₂_left (ofResults_eq_ok.mp h) he
  obtain ⟨t, m, ht, hm, -⟩ := ofOperation_eq_ok.mp hso
  exact ⟨⟨t, ht⟩, m, hm⟩

end StoredOperation

/-! ## Recording -/

namespace Database

theorem holds_rowOf {number id : Int} {e : Value × Operation} {so : StoredOperation} {label : Cell}
    (hso : StoredOperation.ofOperation e.1 e.2 = .ok so)
    (hl : Cell.ofValue 2 so.label = .ok label) :
    OperationRow.Holds id e (rowOf number id label so) := by
  obtain ⟨t, m, ht, hm, rfl⟩ := StoredOperation.ofOperation_eq_ok.mp hso
  exact ⟨rfl, ⟨label, hl, rfl⟩, ⟨t, ht, rfl⟩, m, hm, rfl⟩

theorem holds_rows {id : Int} {es : List (Value × Operation)} {sos : List StoredOperation}
    {rows : List OperationRow} (hes : List.Forall₂
      (fun (e : Value × Operation) so => StoredOperation.ofOperation e.1 e.2 = .ok so) es sos)
    (hrows : List.Forall₂ (fun o row => ∃ number label, Cell.ofValue 2 o.label = .ok label ∧
      row = rowOf number id label o) sos rows) : List.Forall₂ (OperationRow.Holds id) es rows := by
  induction hes generalizing rows with
  | nil =>
    rw [List.forall₂_nil_left_iff] at hrows
    rw [hrows]
    exact .nil
  | cons he _ ih =>
    obtain ⟨row, rows', ⟨number, label, hl, rfl⟩, hrows', rfl⟩ :=
      List.forall₂_cons_left_iff.mp hrows
    exact .cons (holds_rowOf he hl) (ih hrows')

/-- The converted operations of results are added from the first on. -/
theorem addOperations_gains {db : Database} {row : ExecutionRow} {r : Results}
    {os : List StoredOperation} (hrow : row.Holds r) (hid : row.id = db.lastId + 1)
    (hfresh : ∀ e ∈ db.executions, e.id ≠ row.id) (a : Access)
    (hos : StoredOperation.ofResults r = .ok os) :
    ∃ k, Gains r k db ((db.withExecution row).addOperations a row.id os).1 ∧
      (((db.withExecution row).addOperations a row.id os).2 = .ok () → k = r.labelled.length) ∧
      (k = r.labelled.length → (r.labelled = [] → a.begin 1 = .ok ()) →
        ((db.withExecution row).addOperations a row.id os).2 = .ok ()) := by
  obtain ⟨k, rows, hk, hdb, hrows, hfollows, hall, hok⟩ :=
    addOperations_spec (db.hasExecution_withExecution row) a os
  have hes := StoredOperation.ofResults_eq_ok.mp hos
  refine ⟨k, ⟨by rw [hes.length_eq]; exact hk, row, rows, hrow, hid, hfresh, ?_, hfollows, hdb⟩,
    ?_, ?_⟩
  · exact holds_rows (List.forall₂_take k hes) hrows
  · rw [hes.length_eq]
    exact hall
  · intro hlen hready
    refine hok (hlen.trans hes.length_eq) fun hnil => hready ?_
    rw [hnil] at hes
    exact List.forall₂_nil_right_iff.mp hes

/-- **What recording leaves.** The tables stay as they are, or they gain the execution and the
first operations. These are all of them if recording succeeds, and it succeeds if they are, unless
there are none and the statement for them fails; and they are none if one of the operations cannot
be converted. Nothing is gained unless the stamp can be made and the execution is accepted. -/
theorem record_spec (db : Database) (a : Access) (r : Results) :
    ((∃ f, (db.record a r).result = .error f) ∧ (db.record a r).database = db) ∨
      ∃ k, Gains r k db (db.record a r).database ∧
        ((db.record a r).result = .ok () → k = r.labelled.length) ∧
        (k = r.labelled.length → (r.labelled = [] → a.begin 1 = .ok ()) →
          (db.record a r).result = .ok ()) ∧
        ((∃ e ∈ r.labelled, ¬e.2.Converts) → k = 0) ∧
        ∃ t next, Time.stamp r.time = .ok t ∧ db.addExecution a t r.name r.version = .ok next := by
  unfold record
  cases ht : Time.stamp r.time with
  | error f => exact .inl ⟨⟨_, rfl⟩, rfl⟩
  | ok t =>
    cases ha : db.addExecution a t r.name r.version with
    | error f => simp [ha]
    | ok added =>
      obtain ⟨next, id⟩ := added
      obtain ⟨nc, vc, hnc, hvc, hid, hno, -, rfl⟩ := addExecution_spec ht ha
      have hrow : ExecutionRow.Holds r ⟨id, .text t, nc.inTextColumn, vc.inTextColumn⟩ :=
        ⟨⟨t, ht, rfl⟩, ⟨nc, hnc, rfl⟩, vc, hvc, rfl⟩
      have hfresh : ∀ e ∈ db.executions, e.id ≠ id := fun e he hc =>
        absurd (hasExecution_iff.mpr ⟨e, he, hc⟩) (by simp [hno])
      refine .inr ?_
      simp only [ha]
      cases hos : StoredOperation.ofResults r with
      | error f =>
        -- The execution stays although its operations are not converted.
        refine ⟨0, ⟨Nat.zero_le _, _, [], hrow, hid, hfresh, .nil, .nil _, ?_⟩, by simp, ?_,
          fun _ => rfl, t, _, rfl, ha⟩
        · simp [withExecution]
        · -- There is an operation to convert, or nothing could have failed.
          intro hlen _
          have hnil : StoredOperation.ofResults r = .ok [] := by
            rw [StoredOperation.ofResults_eq_ok, List.eq_nil_of_length_eq_zero hlen.symm]
            exact .nil
          rw [hos] at hnil
          exact absurd hnil (by simp)
      | ok os =>
        obtain ⟨k, hgains, hall, hok⟩ := addOperations_gains hrow hid hfresh a hos
        refine ⟨k, ?_, ?_, ?_, ?_, t, _, rfl, ha⟩
        · dsimp only
          split
          · next heq => rw [heq] at hgains; exact hgains
          · next heq => rw [heq] at hgains; exact hgains
        · dsimp only
          split
          · simp
          · next heq => rw [heq] at hall; exact fun _ => hall rfl
        · intro hlen hready
          have hok := hok hlen hready
          dsimp only
          split
          · next heq => rw [heq] at hok; exact absurd hok (by simp)
          · rfl
        · rintro ⟨e, he, hc⟩
          exact absurd (StoredOperation.converts_of_ofResults hos e he) hc

/-- Recording that succeeds adds the execution with all operations. -/
theorem record_gains {db : Database} {a : Access} {r : Results}
    (h : (db.record a r).result = .ok ()) :
    Gains r r.labelled.length db (db.record a r).database := by
  rcases db.record_spec a r with ⟨⟨e, he⟩, -⟩ | ⟨k, hgains, hk, -⟩
  · rw [he] at h
    exact absurd h (by simp)
  · rwa [← hk h]

end Database

end PerfLedger
