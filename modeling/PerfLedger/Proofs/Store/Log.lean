import Mathlib.Data.List.Pairwise
import PerfLedger.Proofs.Store.Record

/-!
# Tables that hold a log

A database into which nothing but whole results were recorded holds the list of these results, in
order (`Database.Logs`). Each of them has an execution and the rows of its operations
(`LoggedExecution`). Executions have ascending numbers, so that the operations of each can be told
from those of the others (`Logs.exists_entries`, `operationsOf_entry`); and so have operations, so
that they are read in the order in which they were recorded.
-/

namespace PerfLedger

/-- Results together with the rows that they became. -/
structure LoggedExecution where
  results : Results
  row : ExecutionRow
  rows : List OperationRow
  row_holds : row.Holds results
  rows_hold : List.Forall₂ (OperationRow.Holds row.id) results.labelled rows

theorem LoggedExecution.execution_eq (e : LoggedExecution) {o : OperationRow} (h : o ∈ e.rows) :
    o.execution = e.row.id := by
  obtain ⟨x, -, hx⟩ := exists_of_forall₂_right e.rows_hold h
  exact hx.execution

namespace Database

/-- The tables hold what was recorded, in order, and nothing else. -/
inductive Logs : List Results → Database → Prop where
  | empty {db : Database} (executions : db.executions = []) (operations : db.operations = []) :
    Logs [] db
  | report {log : List Results} {r : Results} {db db' : Database} (logs : Logs log db)
      (gains : Gains r r.labelled.length db db') : Logs (log ++ [r]) db'

/-- The rows of a database in the order in which they were recorded. -/
structure Entries (db : Database) (es : List LoggedExecution) : Prop where
  executions : db.executions = es.map (·.row)
  operations : db.operations = es.flatMap (·.rows)
  ascending : (es.map (·.row.id)).Pairwise (· < ·)
  numbered : db.operations.Pairwise fun o p => o.number < p.number
  id_le : ∀ e ∈ es, e.row.id ≤ db.lastId

/-- **What is recorded can be told apart.** -/
theorem Logs.exists_entries {log : List Results} {db : Database} (h : Logs log db) :
    ∃ es : List LoggedExecution, es.map (·.results) = log ∧ db.Entries es := by
  induction h with
  | @empty db he ho => exact ⟨[], rfl, by simp [he], by simp [ho], .nil, by simp [ho], by simp⟩
  | @report log r db db' _ hgains ih =>
    obtain ⟨es, hlog, hexec, hops, hasc, hnum, hle⟩ := ih
    obtain ⟨row, rows, hrow, hid, -, hrows, hfollows, rfl⟩ := hgains.added
    rw [List.take_length] at hrows
    refine ⟨es ++ [⟨r, row, rows, hrow, hrows⟩], ?_, ?_, ?_, ?_, ?_, ?_⟩
    · rw [List.map_append, hlog]; rfl
    · rw [List.map_append, ← hexec]; rfl
    · rw [List.flatMap_append, ← hops]; simp
    · rw [List.map_append, List.pairwise_append]
      -- The new number is above the last one, which is above all before it.
      refine ⟨hasc, by simp, ?_⟩
      intro i hi j hj
      obtain ⟨e, he, rfl⟩ := List.mem_map.mp hi
      obtain rfl : j = row.id := by simpa using hj
      have := hle e he
      omega
    · exact List.pairwise_append.mpr ⟨hnum, hfollows.ascending, hfollows.behind⟩
    · intro e he
      rcases List.mem_append.mp he with he | he
      · have := hle e he
        show e.row.id ≤ max db.lastId row.id
        omega
      · rw [List.mem_singleton.mp he]
        exact Int.le_max_right _ _

theorem Entries.nodup {db : Database} {es : List LoggedExecution} (h : db.Entries es) :
    es.Pairwise fun a b => a.row.id ≠ b.row.id := by
  have := h.ascending
  rw [List.pairwise_map] at this
  exact this.imp fun hlt => Int.ne_of_lt hlt

/-- Operations whose numbers ascend are read in the order in which they were put in. -/
theorem operationsOf_of_pairwise {db : Database}
    (h : db.operations.Pairwise fun o p => o.number < p.number) (id : Int) :
    db.operationsOf id = db.operations.filter fun o => o.execution == id :=
  List.mergeSort_of_pairwise ((h.filter _).imp fun hlt => decide_eq_true (Int.le_of_lt hlt))

/-- **The operations of an execution are those that were recorded with it.** -/
theorem operationsOf_entry {db : Database} {es : List LoggedExecution} (h : db.Entries es)
    {e : LoggedExecution} (he : e ∈ es) : db.operationsOf e.row.id = e.rows := by
  have own (e : LoggedExecution) :
      e.rows.filter (fun o => o.execution == e.row.id) = e.rows :=
    List.filter_eq_self.mpr fun o ho => by simp [e.execution_eq ho]
  have other {e e' : LoggedExecution} (hne : e'.row.id ≠ e.row.id) :
      e'.rows.filter (fun o => o.execution == e.row.id) = [] :=
    List.filter_eq_nil_iff.mpr fun o ho => by simp [e'.execution_eq ho, hne]
  -- The entry is found by its number alone, among entries of different numbers.
  rw [operationsOf_of_pairwise h.numbered, h.operations, List.filter_flatMap]
  have hnodup := h.nodup
  clear h
  induction es with
  | nil => exact absurd he List.not_mem_nil
  | cons x xs ih =>
    obtain ⟨hx, hxs⟩ := List.pairwise_cons.mp hnodup
    rw [List.flatMap_cons]
    rcases List.mem_cons.mp he with rfl | he
    · have hrest : xs.flatMap (fun e' => e'.rows.filter fun o => o.execution == e.row.id) = [] :=
        List.flatMap_eq_nil_iff.mpr fun y hy => other (hx y hy).symm
      rw [own, hrest, List.append_nil]
    · rw [other (hx e he), List.nil_append]
      exact ih he hxs

end Database

end PerfLedger
