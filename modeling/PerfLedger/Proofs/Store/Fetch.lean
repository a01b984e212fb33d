import PerfLedger.Proofs.Fallible
import PerfLedger.Store.History

/-!
# Fetching

What is fetched of a row is the values of its cells, and all that can keep a row from being fetched
is a text that is no UTF-8 (`Cell.fetch_eq_error`).

Statements are counted only for the one that is to fail. Where none is, a history does not depend on
the numbers, and its rows are fetched and read one after the other (`history_eq`, `resultsOf_eq`).
-/

namespace PerfLedger

/-! ## Statements -/

namespace Access

variable {a : Access} {n : Nat} {f : DatabaseFault}

theorem begin_of_failing_eq_none (h : a.failing = none) (n : Nat) : a.begin n = .ok () := by
  rw [Access.begin, h]

end Access

/-! ## Rows -/

namespace Cell

variable {c : Cell} {column : String} {f : DatabaseFault}

theorem fetch_eq_error :
    c.fetch column = .error f ↔ ∃ g, c = .garbled g ∧ f = .undecodable column g.bytes := by
  cases c <;> simp [fetch, eq_comm]

/-- No value is put in as a text that is no UTF-8. -/
theorem ofValue_ne_garbled (n : Nat) (v : Value) (g : Text.Garbled) :
    ofValue n v ≠ .ok (.garbled g) := by
  cases v with
  | int i =>
    by_cases hi : fits i
    · simp [ofValue, hi]
    · simp [ofValue, hi]
  | float x => cases x <;> simp [ofValue]
  | _ => simp [ofValue]

/-- What was put in as a value can be fetched. -/
theorem exists_fetch_of_ofValue {n : Nat} {v : Value} (h : ofValue n v = .ok c) (column : String) :
    ∃ x, c.inTextColumn.fetch column = .ok x := by
  cases c with
  | garbled g => exact absurd h (ofValue_ne_garbled n v g)
  | _ => exact ⟨_, rfl⟩

end Cell

theorem ExecutionRow.fetch_eq_ok {e : ExecutionRow} {x : FetchedExecution} :
    e.fetch = .ok x ↔ x.id = e.id ∧ e.time.fetch "executionTime" = .ok x.time ∧
      e.version.fetch "targetVersion" = .ok x.version := by
  simp only [fetch, bind_eq_ok, pure_eq_ok]
  constructor
  · rintro ⟨time, htime, version, hversion, rfl⟩
    exact ⟨rfl, htime, hversion⟩
  · rintro ⟨hid, htime, hversion⟩
    exact ⟨_, htime, _, hversion, by rw [← hid]⟩

theorem OperationRow.fetch_eq_ok {o : OperationRow} {x : FetchedOperation} :
    o.fetch = .ok x ↔ o.version.fetch "version" = .ok x.version ∧
      o.time.fetch "executionTimeMs" = .ok x.time ∧
      o.memory.fetch "heapUsageBytes" = .ok x.memory := by
  simp only [fetch, bind_eq_ok, pure_eq_ok]
  constructor
  · rintro ⟨version, hversion, time, htime, memory, hmemory, rfl⟩
    exact ⟨hversion, htime, hmemory⟩
  · rintro ⟨hversion, htime, hmemory⟩
    exact ⟨_, hversion, _, htime, _, hmemory, rfl⟩

/-! ## Histories -/

namespace Database

variable {db : Database} {a : Access}

theorem fetchOperations_eq (h : a.failing = none) (n : Nat) (id : Int) :
    db.fetchOperations a n id = (db.operationsOf id).mapM OperationRow.fetch := by
  rw [fetchOperations, Access.begin_of_failing_eq_none h]
  rfl

/-- The results that an execution stands for, where no statement fails. -/
theorem resultsOf_eq (h : a.failing = none) (name : Value) (n : Nat) (e : FetchedExecution) :
    db.resultsOf a name n e = db.resultsOf {} name 0 e := by
  have hfetch : db.fetchOperations a n e.id = db.fetchOperations {} 0 e.id := by
    rw [fetchOperations_eq h, fetchOperations_eq rfl]
  rw [resultsOf, resultsOf, hfetch]

/-- The history of a test, where no statement fails. -/
theorem history_eq (h : a.failing = none) (n : String) : db.history a (.text n) = (do
    let executions ← ((db.executionsNamed (.text n)).mapM ExecutionRow.fetch).mapError .database
    let results ← executions.mapM (db.resultsOf {} (.text n) 0)
    return {
      versions := sortTexts (results.flatMap fun r => r.baselines.map (·.1))
      results }) := by
  have hfetch : db.fetchExecutions a (.text n)
      = (db.executionsNamed (.text n)).mapM ExecutionRow.fetch := by
    rw [fetchExecutions, Access.begin_of_failing_eq_none h]
    rfl
  rw [history, hfetch]
  refine bind_congr fun executions => ?_
  rw [mapM_zipIdx fun e k => resultsOf_eq h (.text n) k e]

/-- The names of all tests, where no statement fails. -/
theorem testNames_eq (h : a.failing = none) : db.testNames a = (do
    let names ← (db.names.mapM (Cell.fetch "testName")).mapError .database
    (names.mapM (Value.toTextField "testName")).mapError .field) := by
  have hfetch : db.fetchNames a = db.names.mapM (Cell.fetch "testName") := by
    rw [fetchNames, Access.begin_of_failing_eq_none h]
    rfl
  rw [testNames, hfetch]

end Database

end PerfLedger
