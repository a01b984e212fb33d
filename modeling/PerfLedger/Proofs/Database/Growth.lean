import Mathlib.Logic.Relation
import PerfLedger.Proofs.Database.Insert

/-!
# Tables that grow

Rows come into the tables one at a time (`Insertion`), whether they are put in by hand or belong to
a report; a report is a chain of insertions like any other (`record_grows`). So what holds of every
content of the tables has to be checked for a single row: numbers of rows are unique, and operations
refer to executions; no column that has to hold something is empty; text columns never hold a number
(`IsRegular`).

Rows that are there stay as they are (`Keeps`), and an execution that gets the next number has a
larger one than any that was ever there, because that is counted apart from the rows.
-/

namespace PerfLedger

/-! ## Cells -/

namespace Cell

/-- What a text column holds if it is not empty: a text, whether its bytes are UTF-8 or not, or
bytes. -/
def IsTextual (c : Cell) : Prop :=
  (∃ s, c = .text s) ∨ (∃ g, c = .garbled g) ∨ ∃ bs, c = .blob bs

theorem IsTextual.ne_null {c : Cell} (h : c.IsTextual) : c ≠ .null := by
  rcases h with ⟨s, rfl⟩ | ⟨g, rfl⟩ | ⟨bs, rfl⟩ <;> simp

theorem inTextColumn_isTextual {c : Cell} (h : c ≠ .null) : c.inTextColumn.IsTextual := by
  cases c with
  | null => exact absurd rfl h
  | integer i => exact .inl ⟨_, rfl⟩
  | real x => exact .inl ⟨_, rfl⟩
  | text s => exact .inl ⟨_, rfl⟩
  | garbled g => exact .inr (.inl ⟨_, rfl⟩)
  | blob bs => exact .inr (.inr ⟨_, rfl⟩)

theorem ofWhole_ne_null (x : Binary64) : ofWhole x ≠ .null := by
  unfold ofWhole
  split
  · split <;> simp
  · simp

theorem ofNumeral_ne_null (n : Database.Numeral) : ofNumeral n ≠ .null := by
  unfold ofNumeral
  split
  · simp
  · exact ofWhole_ne_null _

theorem inNumericColumn_ne_null {c : Cell} (h : c ≠ .null) : c.inNumericColumn ≠ .null := by
  cases c with
  | null => exact absurd rfl h
  | integer i => simp [inNumericColumn]
  | real x => exact ofWhole_ne_null x
  | text s =>
    rw [inNumericColumn]
    cases Database.readNumeral? s.toList with
    | none => simp
    | some n => exact ofNumeral_ne_null n
  | garbled g => simp [inNumericColumn]
  | blob bs => simp [inNumericColumn]

end Cell

namespace Database

variable {db db' db'' : Database}

/-! ## One row after the other -/

/-- One row is put into one of the tables, and accepted. -/
inductive Insertion (db db' : Database) : Prop where
  | execution {id time name version : Cell} {n : Int}
      (accepted : db.insertExecution id time name version = .ok (db', n))
  | operation {number execution version time memory : Cell} {n : Int}
      (accepted : db.insertOperation number execution version time memory = .ok (db', n))

/-- Any number of rows are put in, one after the other. -/
def Grows (db db' : Database) : Prop :=
  Relation.ReflTransGen Insertion db db'

theorem Grows.refl (db : Database) : db.Grows db :=
  Relation.ReflTransGen.refl

theorem Grows.trans (h : db.Grows db') (h' : db'.Grows db'') : db.Grows db'' :=
  Relation.ReflTransGen.trans h h'

theorem Insertion.grows (h : Insertion db db') : db.Grows db' :=
  Relation.ReflTransGen.single h

/-! ## What is kept -/

/-- Everything that was in the tables is still there, in the same order. -/
structure Keeps (db db' : Database) : Prop where
  executions : db.executions <+: db'.executions
  operations : db.operations <+: db'.operations
  lastId : db.lastId ≤ db'.lastId

theorem Insertion.keeps (h : Insertion db db') : db.Keeps db' := by
  cases h with
  | execution accepted =>
    obtain ⟨-, -, -, rfl⟩ := insertExecution_spec accepted
    exact ⟨List.prefix_append _ _, List.prefix_rfl, Int.le_max_left _ _⟩
  | operation accepted =>
    obtain ⟨-, -, -, id, -, -, rfl⟩ := insertOperation_spec accepted
    exact ⟨List.prefix_rfl, List.prefix_append _ _, Int.le_refl _⟩

/-- **Rows that are there are neither changed nor removed.** -/
theorem Grows.keeps (h : db.Grows db') : db.Keeps db' := by
  induction h with
  | refl => exact ⟨List.prefix_rfl, List.prefix_rfl, Int.le_refl _⟩
  | tail _ hrow ih =>
    have hlast := hrow.keeps
    exact ⟨ih.executions.trans hlast.executions, ih.operations.trans hlast.operations,
      Int.le_trans ih.lastId hlast.lastId⟩

/-! ## What holds of all contents -/

/-- What holds of the tables, whatever rows were put into them. -/
structure IsRegular (db : Database) : Prop where
  nodup : (db.executions.map (·.id)).Nodup
  /-- No number is larger than the last one that is remembered. -/
  id_le : ∀ e ∈ db.executions, e.id ≤ db.lastId
  execution_cells : ∀ e ∈ db.executions,
    e.time ≠ .null ∧ e.name.IsTextual ∧ e.version.IsTextual
  /-- The numbers of operations are unique, too. -/
  nodup_operations : (db.operations.map (·.number)).Nodup
  reference : ∀ o ∈ db.operations, ∃ e ∈ db.executions, e.id = o.execution
  operation_cells : ∀ o ∈ db.operations,
    (o.version = .null ∨ o.version.IsTextual) ∧ o.time.IsTextual ∧ o.memory.IsTextual

theorem isRegular_of_eq_nil (he : db.executions = []) (ho : db.operations = []) :
    db.IsRegular := by
  constructor <;> simp [he, ho]

/-- One more member keeps the keys of a list unique if no member has its key. -/
theorem nodup_map_concat {α : Type} {key : α → Int} {xs : List α} {x : α}
    (h : (xs.map key).Nodup) (hno : ∀ y ∈ xs, key y ≠ key x) : ((xs ++ [x]).map key).Nodup := by
  rw [List.map_append, List.nodup_append]
  refine ⟨h, by simp, ?_⟩
  rintro i hi j hj rfl
  obtain ⟨y, hy, rfl⟩ := List.mem_map.mp hi
  exact hno y hy (by simpa using hj)

theorem IsRegular.withExecution (h : db.IsRegular) {row : ExecutionRow}
    (hno : db.hasExecution row.id = false)
    (hcells : row.time ≠ .null ∧ row.name.IsTextual ∧ row.version.IsTextual) :
    (db.withExecution row).IsRegular := by
  refine ⟨?_, ?_, ?_, h.nodup_operations, ?_, h.operation_cells⟩
  · show ((db.executions ++ [row]).map (·.id)).Nodup
    refine nodup_map_concat h.nodup fun e he hid => ?_
    have hyes : db.hasExecution row.id = true := hasExecution_iff.mpr ⟨e, he, hid⟩
    rw [hno] at hyes
    exact absurd hyes (by simp)
  · intro e he
    show e.id ≤ max db.lastId row.id
    rcases List.mem_append.mp he with he | he
    · exact Int.le_trans (h.id_le e he) (Int.le_max_left _ _)
    · rw [List.mem_singleton.mp he]
      exact Int.le_max_right _ _
  · intro e he
    rcases List.mem_append.mp he with he | he
    · exact h.execution_cells e he
    · rw [List.mem_singleton.mp he]
      exact hcells
  · intro o ho
    obtain ⟨e, he, hid⟩ := h.reference o ho
    exact ⟨e, List.mem_append_left _ he, hid⟩

theorem IsRegular.withOperation (h : db.IsRegular) {row : OperationRow}
    (hno : db.hasOperation row.number = false) (hid : db.hasExecution row.execution = true)
    (hcells : (row.version = .null ∨ row.version.IsTextual) ∧
      row.time.IsTextual ∧ row.memory.IsTextual) : (db.withOperation row).IsRegular := by
  refine ⟨h.nodup, h.id_le, h.execution_cells, ?_, ?_, ?_⟩
  · refine nodup_map_concat h.nodup_operations fun o ho hnumber => ?_
    have hyes : db.hasOperation row.number = true := hasOperation_iff.mpr ⟨o, ho, hnumber⟩
    rw [hno] at hyes
    exact absurd hyes (by simp)
  · intro o ho
    rcases List.mem_append.mp ho with ho | ho
    · exact h.reference o ho
    · rw [List.mem_singleton.mp ho]
      exact hasExecution_iff.mp hid
  · intro o ho
    rcases List.mem_append.mp ho with ho | ho
    · exact h.operation_cells o ho
    · rw [List.mem_singleton.mp ho]
      exact hcells

theorem Insertion.isRegular (h : Insertion db db') (hdb : db.IsRegular) : db'.IsRegular := by
  cases h with
  | execution accepted =>
    obtain ⟨-, hno, ⟨ht, hn, hv⟩, rfl⟩ := insertExecution_spec accepted
    exact hdb.withExecution hno ⟨Cell.inNumericColumn_ne_null ht, Cell.inTextColumn_isTextual hn,
      Cell.inTextColumn_isTextual hv⟩
  | @operation number execution version time memory n accepted =>
    obtain ⟨-, hno, ⟨ht, hm⟩, id, -, hid, rfl⟩ := insertOperation_spec accepted
    refine hdb.withOperation hno hid ⟨?_, Cell.inTextColumn_isTextual ht,
      Cell.inTextColumn_isTextual hm⟩
    by_cases hv : version = .null
    · exact .inl (by rw [hv]; rfl)
    · exact .inr (Cell.inTextColumn_isTextual hv)

/-- **Tables stay regular.** -/
theorem Grows.isRegular (h : db.Grows db') (hdb : db.IsRegular) : db'.IsRegular := by
  induction h with
  | refl => exact hdb
  | tail _ hrow ih => exact hrow.isRegular ih

/-! ## Reports -/

theorem addEach_grows (db : Database) (a : Access) (n : Nat) (id : Int)
    (os : List StoredOperation) : db.Grows (db.addEach a n id os).1 := by
  induction os generalizing db n with
  | nil => exact .refl db
  | cons o os ih =>
    unfold addEach
    split
    · next next hadd =>
      simp only [addOperation, bind_eq_ok, pure_eq_ok] at hadd
      obtain ⟨_, -, label, -, ⟨last, number⟩, hinsert, rfl⟩ := hadd
      exact (Insertion.operation hinsert).grows.trans (ih last (n + 1))
    · exact .refl db

theorem addOperations_grows (db : Database) (a : Access) (id : Int) (os : List StoredOperation) :
    db.Grows (db.addOperations a id os).1 := by
  unfold addOperations
  split
  · exact addEach_grows db a 2 id os
  · exact .refl db

theorem addExecution_grows {db next : Database} {a : Access} {time : String} {name version : Value}
    {id : Int} (h : db.addExecution a time name version = .ok (next, id)) : db.Grows next := by
  simp only [addExecution, bind_eq_ok] at h
  obtain ⟨_, -, name, -, version, -, added, hinsert, h⟩ := h
  split at h
  · obtain rfl := Except.ok.inj h
    exact (Insertion.execution hinsert).grows
  · exact absurd h (by simp)

/-- **A report puts in its rows one after the other**, as far as it gets. -/
theorem record_grows (db : Database) (a : Access) (r : Results) :
    db.Grows (db.record a r).database := by
  unfold record
  split
  · exact .refl db
  · split
    · exact .refl db
    · next next id hadd =>
      have hnext := addExecution_grows hadd
      split
      · exact hnext
      · next os _ =>
        have hall := hnext.trans (addOperations_grows next a id os)
        split
        · next heq => rwa [heq] at hall
        · next heq => rwa [heq] at hall

end Database

end PerfLedger
