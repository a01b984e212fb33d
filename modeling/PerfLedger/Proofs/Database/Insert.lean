import PerfLedger.Database.Schema
import PerfLedger.Store.Record
import PerfLedger.Proofs.Fallible
import PerfLedger.Proofs.Time.Stamp

/-!
# Rows that are added

What each way of adding rows leaves, guards included. A row has the cells that its columns keep, by
the types that they are declared with (`insertExecution_cells`). So the stamp of an execution stays
a text, although the column for it is numeric (`cells_of_stamp`).

An execution that is added for results gets the next number, which no other execution has. Its
operations are added in turn, so that the ones that are there in the end are those up to the first
that was refused, behind all others (`addOperations_spec`).
-/

namespace PerfLedger

open PerfLedger.Text

/-! ## Stamps in a numeric column -/

namespace Database

theorem isBlank_of_isDigit {c : Char} (h : c.isDigit = true) : isBlank c = false := by
  have := isDigit_iff.mp h
  have hne : c ≠ ' ' := by rintro rfl; exact absurd h (by decide)
  simp only [isBlank, Bool.or_eq_false_iff, Bool.and_eq_false_iff, beq_eq_false_iff_ne,
    decide_eq_false_iff_not]
  exact ⟨hne, by omega⟩

/-- A hyphen behind the first digits is no part of a numeral. -/
theorem readNumeral?_hyphen {ds : List Char} (hne : ds ≠ [])
    (hds : ∀ c ∈ ds, c.isDigit = true) (cs : List Char) :
    readNumeral? (ds ++ '-' :: cs) = none := by
  have htake : (ds ++ '-' :: cs).takeWhile Char.isDigit = ds := by
    rw [List.takeWhile_append_of_pos hds, List.takeWhile_cons_of_neg (by decide), List.append_nil]
  have hdrop : (ds ++ '-' :: cs).dropWhile Char.isDigit = '-' :: cs := by
    rw [List.dropWhile_append_of_pos hds, List.dropWhile_cons_of_neg (by decide)]
  obtain ⟨d, ds', rfl⟩ := List.exists_cons_of_ne_nil hne
  have hd := hds d List.mem_cons_self
  have hblank : (d :: ds' ++ '-' :: cs).dropWhile isBlank = d :: ds' ++ '-' :: cs := by
    rw [List.cons_append, List.dropWhile_cons_of_neg (by simp [isBlank_of_isDigit hd])]
  have hsign : readSign (d :: ds' ++ '-' :: cs) = (false, d :: ds' ++ '-' :: cs) := by
    unfold readSign
    split
    · next heq => rw [List.cons_append, List.cons.injEq] at heq; simp [heq.1] at hd
    · next heq => rw [List.cons_append, List.cons.injEq] at heq; simp [heq.1] at hd
    · rfl
  simp only [readNumeral?, hblank, hsign, htake, hdrop]
  have hexp : readExponent? ('-' :: cs) = some (none, '-' :: cs) := rfl
  have hhyphen : isBlank '-' = false := rfl
  show (readExponent? ('-' :: cs)).bind _ = none
  rw [hexp, Option.bind_some]
  refine if_pos (.inr ?_)
  rw [List.any_cons, hhyphen, Bool.not_false, Bool.true_or]

end Database

/-- **A stamp stays a text in a numeric column.** -/
theorem Cell.inNumericColumn_stamp (t : WallTime) :
    (Cell.text (String.ofList (Time.stampChars t))).inNumericColumn
      = .text (String.ofList (Time.stampChars t)) := by
  simp only [Cell.inNumericColumn, String.toList_ofList, Time.stampChars_eq,
    Database.readNumeral?_hyphen (digits_ne_nil _) fun _ => isDigit_of_mem_digits]

/-- The text of a stamp is that of a clock reading. -/
theorem Time.exists_stampChars {m : Moment} {s : String} (h : stamp m = .ok s) :
    ∃ t, s = String.ofList (stampChars t) := by
  unfold stamp at h
  split at h
  · split at h
    · next t _ => exact ⟨t, (Except.ok.inj h).symm⟩
    · exact absurd h (by simp)
  · exact ⟨m.wall, (Except.ok.inj h).symm⟩

namespace Database

/-! ## Columns -/

theorem ofType_integer : Affinity.ofType "INTEGER" = .integer := by decide

theorem ofType_timestamp : Affinity.ofType "TIMESTAMP" = .numeric := by decide

theorem ofType_varchar : Affinity.ofType "VARCHAR" = .text := by decide

theorem ofType_decimalText : Affinity.ofType "DECIMAL TEXT" = .text := by decide

/-- What the columns of the table of executions keep of a row. -/
theorem keep_executionColumns (n : Int) (time name version : Cell) :
    List.zipWith Column.keep executionColumns [.integer n, time, name, version]
      = [.integer n, time.inNumericColumn, name.inTextColumn, version.inTextColumn] := by
  simp only [executionColumns, List.zipWith_cons_cons, List.zipWith_nil_right, Column.keep,
    ofType_integer, ofType_timestamp, ofType_varchar, Cell.adapt, Cell.inNumericColumn]

/-- What the columns of the table of operations keep of a row. -/
theorem keep_operationColumns (execution version time memory : Cell) :
    List.zipWith Column.keep operationColumns [execution, version, time, memory]
      = [execution.inNumericColumn, version.inTextColumn, time.inTextColumn,
        memory.inTextColumn] := by
  simp only [operationColumns, List.zipWith_cons_cons, List.zipWith_nil_right, Column.keep,
    ofType_integer, ofType_varchar, ofType_decimalText, Cell.adapt]

/-! ## Executions -/

/-- The tables with one more execution. -/
def withExecution (db : Database) (row : ExecutionRow) : Database :=
  { db with executions := db.executions ++ [row], lastId := max db.lastId row.id }

theorem require_eq_ok {table column : String} {c : Cell} :
    require table column c = .ok () ↔ c ≠ .null := by
  unfold require
  split
  · next h => simp [h]
  · next h => simp [h]

theorem numberAfter_null_eq_ok {last n : Int} :
    numberAfter last .null = .ok n ↔ last < idLimit ∧ n = last + 1 := by
  simp only [numberAfter, Cell.inNumericColumn]
  split
  · next hlt => simp [hlt, eq_comm]
  · next hge => simp [hge]

/-- What adding an execution takes, and what it leaves. -/
theorem insertExecution_spec {db db' : Database} {id time name version : Cell} {n : Int}
    (h : db.insertExecution id time name version = .ok (db', n)) :
    db.newId id = .ok n ∧ db.hasExecution n = false ∧
      (time ≠ .null ∧ name ≠ .null ∧ version ≠ .null) ∧
      db' = db.withExecution
        ⟨n, time.inNumericColumn, name.inTextColumn, version.inTextColumn⟩ := by
  simp only [insertExecution, bind_eq_ok] at h
  obtain ⟨m, hm, _, ht, _, hn, _, hv, h⟩ := h
  split at h
  · exact absurd h (by simp)
  · next hno =>
    simp only [Except.ok.injEq, Prod.mk.injEq] at h
    obtain ⟨rfl, rfl⟩ := h
    exact ⟨hm, by simpa using hno,
      ⟨require_eq_ok.mp ht, require_eq_ok.mp hn, require_eq_ok.mp hv⟩, rfl⟩

/-- **A row of the table of executions has the cells that its columns keep.** -/
theorem insertExecution_cells {db db' : Database} {id time name version : Cell} {n : Int}
    (h : db.insertExecution id time name version = .ok (db', n)) :
    ∃ row, db' = db.withExecution row ∧
      row.cells = List.zipWith Column.keep executionColumns [.integer n, time, name, version] := by
  obtain ⟨-, -, -, rfl⟩ := insertExecution_spec h
  exact ⟨_, rfl, (keep_executionColumns n time name version).symm⟩

/-- **The column for it keeps a stamp as it is.** -/
theorem cells_of_stamp {m : Moment} {time : String} {name version : Cell} {n : Int}
    {row : ExecutionRow} (ht : Time.stamp m = .ok time) (h : row.cells
      = List.zipWith Column.keep executionColumns [.integer n, .text time, name, version]) :
    row = ⟨n, .text time, name.inTextColumn, version.inTextColumn⟩ := by
  obtain ⟨t, rfl⟩ := Time.exists_stampChars ht
  obtain ⟨id, rt, rn, rv⟩ := row
  rw [keep_executionColumns, Cell.inNumericColumn_stamp] at h
  simp only [ExecutionRow.cells, List.cons.injEq, Cell.integer.injEq, and_true] at h
  obtain ⟨rfl, rfl, rfl, rfl⟩ := h
  rfl

/-- The execution that is added for results has the next number, and is added to a database that can
be written. -/
theorem addExecution_spec {db db' : Database} {a : Access} {m : Moment} {time : String}
    {name version : Value} {n : Int} (ht : Time.stamp m = .ok time)
    (h : db.addExecution a time name version = .ok (db', n)) :
    ∃ nc vc, Cell.ofValue 2 name = .ok nc ∧ Cell.ofValue 3 version = .ok vc ∧
      n = db.lastId + 1 ∧ db.hasExecution n = false ∧ a.writable = true ∧
      db' = db.withExecution ⟨n, .text time, nc.inTextColumn, vc.inTextColumn⟩ := by
  simp only [addExecution, bind_eq_ok] at h
  obtain ⟨_, -, nc, hnc, vc, hvc, added, hadded, h⟩ := h
  split at h
  · next hw =>
    obtain rfl := Except.ok.inj h
    obtain ⟨hid, hno, -, -⟩ := insertExecution_spec hadded
    obtain ⟨row, rfl, hcells⟩ := insertExecution_cells hadded
    rw [cells_of_stamp ht hcells]
    exact ⟨nc, vc, hnc, hvc, (numberAfter_null_eq_ok.mp hid).2, hno, hw, rfl⟩
  · exact absurd h (by simp)

theorem hasExecution_iff {db : Database} {n : Int} :
    db.hasExecution n = true ↔ ∃ e ∈ db.executions, e.id = n := by
  simp [hasExecution]

theorem hasExecution_withExecution (db : Database) (row : ExecutionRow) :
    (db.withExecution row).hasExecution row.id = true :=
  hasExecution_iff.mpr ⟨row, List.mem_append_right _ List.mem_cons_self, rfl⟩

/-! ## Operations -/

/-- The tables with one more operation. -/
def withOperation (db : Database) (row : OperationRow) : Database :=
  { db with operations := db.operations ++ [row] }

theorem hasOperation_iff {db : Database} {n : Int} :
    db.hasOperation n = true ↔ ∃ o ∈ db.operations, o.number = n := by
  simp [hasOperation]

theorem number_le_lastNumber {db : Database} {o : OperationRow} (ho : o ∈ db.operations) :
    o.number ≤ db.lastNumber := by
  have hmem : o.number ∈ db.operations.map (·.number) := List.mem_map_of_mem ho
  rw [lastNumber, List.max?_eq_some_max (List.ne_nil_of_mem hmem), Option.getD_some]
  exact List.le_max_of_mem hmem

/-- An operation behind all others has the last number. -/
theorem lastNumber_withOperation {db : Database} {row : OperationRow}
    (h : ∀ o ∈ db.operations, o.number ≤ row.number) :
    (db.withOperation row).lastNumber = row.number := by
  have hmax : ((db.operations ++ [row]).map (·.number)).max? = some row.number := by
    rw [List.max?_eq_some_iff]
    refine ⟨List.mem_map_of_mem (List.mem_append_right _ List.mem_cons_self), ?_⟩
    simp only [List.mem_map, List.mem_append, List.mem_singleton]
    rintro n ⟨o, ho | rfl, rfl⟩
    · exact h o ho
    · exact Int.le_refl _
  rw [withOperation, lastNumber, hmax, Option.getD_some]

/-- The next number is free. -/
theorem hasOperation_next (db : Database) : db.hasOperation (db.lastNumber + 1) = false := by
  rw [← Bool.not_eq_true, hasOperation_iff]
  rintro ⟨o, ho, hnumber⟩
  have := number_le_lastNumber ho
  omega

theorem reference_eq_ok {db : Database} {c : Cell} {id : Int} :
    db.reference c = .ok id ↔ c.inNumericColumn = .integer id ∧ db.hasExecution id = true := by
  unfold reference
  split
  · next i hi =>
    split
    · next hex =>
      simp only [hi, Except.ok.injEq, Cell.integer.injEq]
      exact ⟨fun h => ⟨h, h ▸ hex⟩, fun h => h.1⟩
    · next hno =>
      simp only [hi, reduceCtorEq, Cell.integer.injEq, false_iff, not_and]
      exact fun h => h ▸ hno
  · next hno =>
    simp only [reduceCtorEq, false_iff, not_and]
    exact fun h => absurd h (hno id)

/-- What adding an operation takes, and what it leaves: its number is free, and it refers to an
execution that is there. -/
theorem insertOperation_spec {db db' : Database} {number execution version time memory : Cell}
    {n : Int} (h : db.insertOperation number execution version time memory = .ok (db', n)) :
    numberAfter db.lastNumber number = .ok n ∧ db.hasOperation n = false ∧
      (time ≠ .null ∧ memory ≠ .null) ∧ ∃ id, execution.inNumericColumn = .integer id ∧
      db.hasExecution id = true ∧ db' = db.withOperation
        ⟨n, id, version.inTextColumn, time.inTextColumn, memory.inTextColumn⟩ := by
  simp only [insertOperation, bind_eq_ok] at h
  obtain ⟨m, hm, _, -, _, ht, _, hmem, h⟩ := h
  split at h
  · exact absurd h (by simp)
  · next hno =>
    obtain ⟨id, hid, h⟩ := bind_eq_ok.mp h
    simp only [Except.ok.injEq, Prod.mk.injEq] at h
    obtain ⟨rfl, rfl⟩ := h
    obtain ⟨hinteger, hex⟩ := reference_eq_ok.mp hid
    exact ⟨hm, by simpa using hno, ⟨require_eq_ok.mp ht, require_eq_ok.mp hmem⟩, id, hinteger, hex,
      rfl⟩

/-- The row of a stored operation of an execution, for a label that fits a cell. -/
def rowOf (number id : Int) (label : Cell) (o : StoredOperation) : OperationRow :=
  ⟨number, id, label.inTextColumn, .text o.time, .text o.memory⟩

/-- Nothing but its label, the statement, or the lack of a number can keep an operation of an
execution from being added. -/
theorem addOperation_eq {db : Database} {a : Access} {n : Nat} {id : Int}
    (hid : db.hasExecution id = true) (o : StoredOperation) :
    db.addOperation a n id o = (do
      a.begin n
      let label ← Cell.ofValue 2 o.label
      if db.lastNumber < idLimit then
        return db.withOperation (rowOf (db.lastNumber + 1) id label o)
      else .error .full) := by
  unfold addOperation
  refine bind_congr fun _ => bind_congr fun label => ?_
  by_cases hlt : db.lastNumber < idLimit
  · simp [insertOperation, numberAfter, require, reference, Cell.inNumericColumn, hid, hlt, bind,
      Except.bind, rowOf, Cell.inTextColumn, pure, Except.pure, hasOperation_next, withOperation]
  · simp [insertOperation, numberAfter, Cell.inNumericColumn, hlt, bind, Except.bind]

theorem addOperation_eq_ok {db next : Database} {a : Access} {n : Nat} {id : Int}
    (hid : db.hasExecution id = true) {o : StoredOperation} :
    db.addOperation a n id o = .ok next ↔ a.begin n = .ok () ∧ db.lastNumber < idLimit ∧
      ∃ label, Cell.ofValue 2 o.label = .ok label ∧
        next = db.withOperation (rowOf (db.lastNumber + 1) id label o) := by
  rw [addOperation_eq hid]
  simp only [bind_eq_ok]
  constructor
  · rintro ⟨_, hbegin, label, hl, h⟩
    split at h
    · next hlt => exact ⟨hbegin, hlt, label, hl, (Except.ok.inj h).symm⟩
    · exact absurd h (by simp)
  · rintro ⟨hbegin, hlt, label, hl, rfl⟩
    exact ⟨(), hbegin, label, hl, if_pos hlt⟩

/-- Rows that come behind others in the order of numbers, and in this order. -/
structure Follows (before rows : List OperationRow) : Prop where
  behind : ∀ o ∈ before, ∀ p ∈ rows, o.number < p.number
  ascending : rows.Pairwise fun o p => o.number < p.number

theorem Follows.nil (before : List OperationRow) : Follows before [] :=
  ⟨fun _ _ _ hp => absurd hp List.not_mem_nil, .nil⟩

theorem Follows.cons {before rows : List OperationRow} {row : OperationRow}
    (hrow : ∀ o ∈ before, o.number < row.number) (h : Follows (before ++ [row]) rows) :
    Follows before (row :: rows) := by
  have hmem : row ∈ before ++ [row] := List.mem_append_right _ List.mem_cons_self
  refine ⟨?_, .cons (h.behind row hmem) h.ascending⟩
  intro o ho p hp
  rcases List.mem_cons.mp hp with rfl | hp
  · exact hrow o ho
  · exact h.behind o (List.mem_append_left _ ho) p hp

/-- Operations are added up to the first that is refused. -/
theorem addEach_spec {db : Database} {id : Int} (hid : db.hasExecution id = true) (a : Access)
    (n : Nat) (os : List StoredOperation) :
    ∃ k rows, k ≤ os.length ∧
      (db.addEach a n id os).1 = { db with operations := db.operations ++ rows } ∧
      List.Forall₂ (fun o row => ∃ number label, Cell.ofValue 2 o.label = .ok label ∧
        row = rowOf number id label o) (os.take k) rows ∧
      Follows db.operations rows ∧
      ((db.addEach a n id os).2 = .ok () ↔ k = os.length) := by
  induction os generalizing db n with
  | nil => exact ⟨0, [], Nat.le_refl _, by simp [addEach], .nil, .nil _, by simp [addEach]⟩
  | cons o os ih =>
    unfold addEach
    cases hadd : db.addOperation a n id o with
    | error f => exact ⟨0, [], Nat.zero_le _, by simp, .nil, .nil _, by simp⟩
    | ok next =>
      obtain ⟨-, -, label, hl, rfl⟩ := (addOperation_eq_ok hid).mp hadd
      have hid' : (db.withOperation (rowOf (db.lastNumber + 1) id label o)).hasExecution id
          = true := hid
      obtain ⟨k, rows, hk, hdb, hrows, hfollows, hok⟩ := ih hid' (n + 1)
      refine ⟨k + 1, rowOf (db.lastNumber + 1) id label o :: rows, Nat.succ_le_succ hk, ?_, ?_, ?_,
        ?_⟩
      · rw [hdb]
        simp only [withOperation, List.append_assoc, List.singleton_append]
      · exact .cons ⟨_, label, hl, rfl⟩ hrows
      · exact .cons (fun p hp => Int.lt_add_one_of_le (number_le_lastNumber hp)) hfollows
      · simpa using hok

/-- **Operations are added up to the first that is refused**, behind all others. They are all there
if nothing is refused; and if one is refused they are not, unless there are none, and the statement
for them fails. -/
theorem addOperations_spec {db : Database} {id : Int} (hid : db.hasExecution id = true)
    (a : Access) (os : List StoredOperation) :
    ∃ k rows, k ≤ os.length ∧
      (db.addOperations a id os).1 = { db with operations := db.operations ++ rows } ∧
      List.Forall₂ (fun o row => ∃ number label, Cell.ofValue 2 o.label = .ok label ∧
        row = rowOf number id label o) (os.take k) rows ∧
      Follows db.operations rows ∧
      ((db.addOperations a id os).2 = .ok () → k = os.length) ∧
      (k = os.length → (os = [] → a.begin 1 = .ok ()) → (db.addOperations a id os).2 = .ok ()) := by
  unfold addOperations
  cases hbegin : a.begin 1 with
  | ok u =>
    obtain ⟨k, rows, hk, hdb, hrows, hfollows, hok⟩ := addEach_spec hid a 2 os
    exact ⟨k, rows, hk, hdb, hrows, hfollows, hok.mp, fun h _ => hok.mpr h⟩
  | error f =>
    refine ⟨0, [], Nat.zero_le _, by simp, .nil, .nil _, by simp, ?_⟩
    intro h hnil
    exact absurd (hnil (List.eq_nil_of_length_eq_zero h.symm)) (by simp)

end Database

end PerfLedger
