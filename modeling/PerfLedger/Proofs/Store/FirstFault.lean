import PerfLedger.Proofs.Store.Isolation
import PerfLedger.Proofs.Store.Record

/-!
# The first fault in a database

Between a request to a database and its answer many steps can fail: a statement is run, a parameter
of it bound, a cell fetched, a measure or a time converted. For recording results, for reading a
history and for reading the names of all tests there is a relation that tells which step is the
first to fail, and how (`FailsToRecord`, `FailsToTell`, `FailsToName`); and this is what they answer
(`record_eq_error`, `history_eq_error`, `testNames_eq_error`).
-/

namespace PerfLedger

open Database

/-! ## Recording -/

/-- The first measure of an operation that cannot be converted to base units. -/
inductive Operation.FailsToConvert (o : Operation) : AmountFault → Prop where
  | time {f : AmountFault} (fails : o.time.inBaseUnits .duration = .error f) : FailsToConvert o f
  | memory {t : Decimal} {f : AmountFault} (time : o.time.inBaseUnits .duration = .ok t)
      (fails : o.memory.inBaseUnits .dataAmount = .error f) : FailsToConvert o f

namespace StoredOperation

variable {f : AmountFault} {label : Value}

theorem ofOperation_eq_error {o : Operation} :
    ofOperation label o = .error f ↔ o.FailsToConvert f := by
  simp only [ofOperation, bind_eq_error, pure, Except.pure, reduceCtorEq, and_false, exists_false,
    or_false]
  constructor
  · rintro (fails | ⟨t, time, fails⟩)
    · exact .time fails
    · exact .memory time fails
  · intro h
    cases h with
    | time fails => exact .inl fails
    | memory time fails => exact .inr ⟨_, time, fails⟩

theorem ofOperations_eq_error {os : List Operation} :
    ofOperations label os = .error f ↔
      FirstFails (fun e f => e.2.FailsToConvert f) (os.map fun o => (label, o)) f := by
  rw [ofOperations, mapM_eq_error, firstFails_map]
  exact firstFails_congr fun o f => ofOperation_eq_error

/-- Operations that are converted have no member that fails. -/
theorem not_failsToConvert {es : List (Value × Operation)} {sos : List StoredOperation}
    (h : List.Forall₂ (fun e so => ofOperation e.1 e.2 = .ok so) es sos) :
    ∀ e ∈ es, ∀ f, ¬e.2.FailsToConvert f := by
  intro e he f hf
  obtain ⟨so, -, hso⟩ := exists_of_forall₂_left h he
  rw [ofOperation_eq_error.mpr hf] at hso
  exact absurd hso (by simp)

/-- Two rows of operations that are converted one after the other fail at the first operation of
both that does. -/
theorem append_eq_error {es es' : List (Value × Operation)}
    {x y : Except AmountFault (List StoredOperation)}
    (hx : ∀ f, x = .error f ↔ FirstFails (fun e f => e.2.FailsToConvert f) es f)
    (hok : ∀ sos, x = .ok sos → List.Forall₂ (fun e so => ofOperation e.1 e.2 = .ok so) es sos)
    (hy : ∀ f, y = .error f ↔ FirstFails (fun e f => e.2.FailsToConvert f) es' f) :
    (do let as ← x; let bs ← y; return as ++ bs) = Except.error f ↔
      FirstFails (fun e f => e.2.FailsToConvert f) (es ++ es') f := by
  simp only [bind_eq_error, pure, Except.pure, reduceCtorEq, and_false, exists_false, or_false,
    firstFails_append, hx, hy]
  constructor
  · rintro (h | ⟨sos, hsos, h⟩)
    · exact .inl h
    · exact .inr ⟨not_failsToConvert (hok sos hsos), h⟩
  · rintro (h | ⟨hnone, h⟩)
    · exact .inl h
    · cases hsos : x with
      | error g =>
        -- A failure would be that of some operation.
        exact absurd ((hx g).mp hsos) (not_firstFails hnone)
      | ok sos => exact .inr ⟨sos, rfl, h⟩

theorem ofBaselines_eq_error {bs : List (String × Baseline)} :
    ofBaselines bs = .error f ↔ FirstFails (fun e f => e.2.FailsToConvert f)
      (bs.flatMap fun e => e.2.operations.map fun o => (e.2.version, o)) f := by
  induction bs generalizing f with
  | nil => simp [ofBaselines, not_firstFails_nil]
  | cons e es ih =>
    rw [ofBaselines, List.flatMap_cons]
    exact append_eq_error (fun f => ofOperations_eq_error) (fun sos => ofOperations_eq_ok.mp)
      fun f => ih

/-- **Results are not converted if one of their operations is not**, and the first one tells why. -/
theorem ofResults_eq_error {r : Results} :
    ofResults r = .error f ↔ FirstFails (fun e f => e.2.FailsToConvert f) r.labelled f :=
  append_eq_error (fun _ => ofOperations_eq_error) (fun _ => ofOperations_eq_ok.mp)
    fun _ => ofBaselines_eq_error

/-- Operations that are converted keep their labels. -/
theorem labels_of_ofResults {r : Results} {sos : List StoredOperation} (h : ofResults r = .ok sos) :
    sos.map (·.label) = r.labelled.map (·.1) := by
  rw [← List.forall₂_eq_eq_eq, List.forall₂_map_left_iff, List.forall₂_map_right_iff]
  refine (ofResults_eq_ok.mp h).flip.imp ?_
  intro so e hso
  obtain ⟨t, m, -, -, rfl⟩ := ofOperation_eq_ok.mp hso
  rfl

end StoredOperation

namespace Database

variable {db : Database} {a : Access} {r : Results} {f : StoreFault}

/-- The first thing that keeps an operation from being added, by the run of the statement with a
number, behind operations of which the last has a number: the run fails, the label fits no cell, or
there is no number for it. -/
inductive FailsToAdd (a : Access) (n : Nat) (last : Int) (label : Value) :
    DatabaseFault → Prop where
  | statement {f : DatabaseFault} (fails : a.begin n = .error f) : FailsToAdd a n last label f
  | label {f : DatabaseFault} (runs : a.begin n = .ok ())
      (bound : Cell.ofValue 2 label = .error f) : FailsToAdd a n last label f
  | number {c : Cell} (runs : a.begin n = .ok ()) (bound : Cell.ofValue 2 label = .ok c)
      (taken : idLimit ≤ last) : FailsToAdd a n last label .full

/-- The first step of recording results that fails: their time is converted, their execution is put
in, their operations are converted, a statement for these is made ready, and they are put in. -/
inductive FailsToRecord (db : Database) (a : Access) (r : Results) : StoreFault → Prop where
  | time {f : Time.Fault} (stamp : Time.stamp r.time = .error f) : FailsToRecord db a r (.time f)
  | execution {t : String} {f : DatabaseFault} (stamp : Time.stamp r.time = .ok t)
      (added : db.addExecution a t r.name r.version = .error f) : FailsToRecord db a r (.database f)
  | amount {t : String} {next : Database × Int} {f : AmountFault}
      (stamp : Time.stamp r.time = .ok t)
      (added : db.addExecution a t r.name r.version = .ok next)
      (fails : FirstFails (fun e f => e.2.FailsToConvert f) r.labelled f) :
      FailsToRecord db a r (.amount f)
  | statement {t : String} {next : Database × Int} {f : DatabaseFault}
      (stamp : Time.stamp r.time = .ok t)
      (added : db.addExecution a t r.name r.version = .ok next)
      (converted : ∀ e ∈ r.labelled, ∀ f, ¬e.2.FailsToConvert f) (ready : a.begin 1 = .error f) :
      FailsToRecord db a r (.database f)
  | operation {t : String} {next : Database × Int} {f : DatabaseFault}
      (stamp : Time.stamp r.time = .ok t)
      (added : db.addExecution a t r.name r.version = .ok next)
      (converted : ∀ e ∈ r.labelled, ∀ f, ¬e.2.FailsToConvert f) (ready : a.begin 1 = .ok ())
      (fails : FirstFails (fun e f => FailsToAdd a (e.2 + 2) (db.lastNumber + e.2) e.1.1 f)
        r.labelled.zipIdx f) :
      FailsToRecord db a r (.database f)

theorem addOperation_eq_error {n : Nat} {id : Int} (hid : db.hasExecution id = true)
    {o : StoredOperation} {f : DatabaseFault} :
    db.addOperation a n id o = .error f ↔ FailsToAdd a n db.lastNumber o.label f := by
  rw [addOperation_eq hid]
  simp only [bind_eq_error]
  constructor
  · rintro (fails | ⟨_, runs, bound | ⟨c, bound, hnumber⟩⟩)
    · exact .statement fails
    · exact .label runs bound
    · split at hnumber
      · exact absurd hnumber (by simp [pure, Except.pure])
      · next hlast =>
        obtain rfl := Except.error.inj hnumber
        exact .number runs bound (Int.not_lt.mp hlast)
  · intro h
    cases h with
    | statement fails => exact .inl fails
    | label runs bound => exact .inr ⟨(), runs, .inl bound⟩
    | number runs bound taken =>
      exact .inr ⟨(), runs, .inr ⟨_, bound, if_neg (Int.not_lt.mpr taken)⟩⟩

/-- Operations are added up to the first that cannot be, each behind the one before it. -/
theorem addEach_eq_error {id : Int} (hid : db.hasExecution id = true) {last : Int} {k : Nat}
    (hlast : db.lastNumber = last + k) {os : List StoredOperation} {f : DatabaseFault} :
    (db.addEach a (k + 2) id os).2 = .error f ↔
      FirstFails (fun e f => FailsToAdd a (e.2 + 2) (last + e.2) e.1 f)
        ((os.map (·.label)).zipIdx k) f := by
  induction os generalizing db k with
  | nil => simp [addEach, not_firstFails_nil]
  | cons o os ih =>
    have hfirst (g : DatabaseFault) : FailsToAdd a (k + 2) (last + k) o.label g ↔
        db.addOperation a (k + 2) id o = .error g := by
      rw [← hlast, addOperation_eq_error hid]
    simp only [List.map_cons, List.zipIdx_cons, firstFails_cons, hfirst]
    unfold addEach
    cases hadd : db.addOperation a (k + 2) id o with
    | error g => simp
    | ok next =>
      obtain ⟨-, -, label, -, rfl⟩ := (addOperation_eq_ok hid).mp hadd
      have hid' : (db.withOperation (rowOf (db.lastNumber + 1) id label o)).hasExecution id
          = true := hid
      have hnext : (db.withOperation (rowOf (db.lastNumber + 1) id label o)).lastNumber
          = last + (k + 1 : Nat) := by
        rw [lastNumber_withOperation fun p hp => Int.le_add_one (number_le_lastNumber hp)]
        simp only [rowOf]
        omega
      simpa using ih hid' hnext

theorem exists_ofResults (h : ∀ e ∈ r.labelled, ∀ f, ¬e.2.FailsToConvert f) :
    ∃ os, StoredOperation.ofResults r = .ok os := by
  refine not_eq_error.mp ?_
  intro f hf
  exact not_firstFails h (StoredOperation.ofResults_eq_error.mp hf)

/-- The execution that was put in is there, and no operation is. -/
theorem addExecution_frame {t : String} {next : Database × Int} (stamp : Time.stamp r.time = .ok t)
    (added : db.addExecution a t r.name r.version = .ok next) :
    next.1.hasExecution next.2 = true ∧ next.1.lastNumber = db.lastNumber := by
  obtain ⟨nc, vc, -, -, -, -, -, hnext⟩ := addExecution_spec stamp added
  rw [hnext]
  exact ⟨hasExecution_withExecution db _, rfl⟩

/-- The operations of results are put in until the first one that cannot be. -/
theorem addEach_ofResults_eq_error {os : List StoredOperation} {id : Int} {f : DatabaseFault}
    (hid : db.hasExecution id = true) (converted : StoredOperation.ofResults r = .ok os) :
    (db.addEach a 2 id os).2 = .error f ↔
      FirstFails (fun e f => FailsToAdd a (e.2 + 2) (db.lastNumber + e.2) e.1.1 f)
        r.labelled.zipIdx f := by
  rw [addEach_eq_error (k := 0) hid (Int.add_zero _).symm,
    StoredOperation.labels_of_ofResults converted, List.zipIdx_map, firstFails_map]
  rfl

/-- Whatever recording answers with as its fault is the first step that fails. -/
theorem failsToRecord_of_record (herror : (db.record a r).result = .error f) :
    db.FailsToRecord a r f := by
  unfold record at herror
  split at herror
  · next stamp => exact Except.error.inj herror ▸ .time stamp
  · next stamp =>
    split at herror
    · next added => exact Except.error.inj herror ▸ .execution stamp added
    · next next id added =>
      split at herror
      · next fails =>
        exact Except.error.inj herror ▸
          .amount stamp added (StoredOperation.ofResults_eq_error.mp fails)
      · next os converted =>
        have hconverted :=
          StoredOperation.not_failsToConvert (StoredOperation.ofResults_eq_ok.mp converted)
        obtain ⟨hid, hlast⟩ := addExecution_frame stamp added
        split at herror
        · next refused =>
          obtain rfl := Except.error.inj herror
          unfold addOperations at refused
          cases ready : a.begin 1 with
          | error g =>
            rw [ready] at refused
            obtain rfl := Except.error.inj (congrArg Prod.snd refused)
            exact .statement stamp added hconverted ready
          | ok u =>
            rw [ready] at refused
            have hfails := (addEach_ofResults_eq_error hid converted).mp (congrArg Prod.snd refused)
            rw [hlast] at hfails
            exact .operation stamp added hconverted ready hfails
        · exact absurd herror (by simp)

/-- The first step of recording that fails is answered as the fault. -/
theorem record_of_failsToRecord (hfails : db.FailsToRecord a r f) :
    (db.record a r).result = .error f := by
  cases hfails with
  | time stamp => simp only [record, stamp]
  | execution stamp added => simp only [record, stamp, added]
  | amount stamp added fails =>
    simp only [record, stamp, added, StoredOperation.ofResults_eq_error.mpr fails]
  | statement stamp added converted ready =>
    obtain ⟨os, hos⟩ := exists_ofResults converted
    simp only [record, stamp, added, hos, addOperations, ready]
  | @operation t next f stamp added converted ready fails =>
    obtain ⟨os, hos⟩ := exists_ofResults converted
    obtain ⟨hid, hlast⟩ := addExecution_frame stamp added
    rw [← hlast] at fails
    have hrefused : (next.1.addOperations a next.2 os).2 = .error f := by
      rw [addOperations, ready]
      exact (addEach_ofResults_eq_error hid hos).mpr fails
    simp only [record, stamp, added, hos]
    split
    · next heq => simpa [heq] using hrefused
    · next heq => simp [heq] at hrefused

theorem record_eq_error : (db.record a r).result = .error f ↔ db.FailsToRecord a r f :=
  ⟨failsToRecord_of_record, record_of_failsToRecord⟩

end Database

/-! ## Reading -/

/-- The first measure of a row that cannot be read. -/
inductive FetchedOperation.FailsToRead (o : FetchedOperation) : FieldFault → Prop where
  | time {f : FieldFault} (read : o.time.toDecimalField "executionTimeMs" = .error f) :
      FailsToRead o f
  | memory {t : Decimal} {f : FieldFault}
      (time : o.time.toDecimalField "executionTimeMs" = .ok t)
      (read : o.memory.toDecimalField "heapUsageBytes" = .error f) : FailsToRead o f

theorem FetchedOperation.entry_eq_error {o : FetchedOperation} {f : FieldFault} :
    o.entry = .error f ↔ o.FailsToRead f := by
  simp only [entry, map_eq_error, toOperation, bind_eq_error, pure, Except.pure, reduceCtorEq,
    and_false, exists_false, or_false]
  constructor
  · rintro (read | ⟨t, time, read⟩)
    · exact .time read
    · exact .memory time read
  · intro h
    cases h with
    | time read => exact .inl read
    | memory time read => exact .inr ⟨_, time, read⟩

namespace Database

variable {db : Database} {a : Access} {name : Value} {f : StoreFault}

/-- The first thing that keeps rows from being fetched by the statement with a number: the statement
fails, or one of the rows cannot be fetched. -/
inductive FailsToFetch {α β : Type} (a : Access) (n : Nat) (fetch : α → Except DatabaseFault β)
    (rows : List α) : DatabaseFault → Prop where
  | statement {f : DatabaseFault} (fails : a.begin n = .error f) : FailsToFetch a n fetch rows f
  | row {f : DatabaseFault} (runs : a.begin n = .ok ())
      (fails : FirstFails (fun x f => fetch x = .error f) rows f) : FailsToFetch a n fetch rows f

/-- The first step of reading an execution that fails: its version, its time, its operations, which
are fetched and then read. -/
inductive FailsToShow (db : Database) (a : Access) (e : FetchedExecution) (n : Nat) :
    StoreFault → Prop where
  | version (missing : e.version = .null) : FailsToShow db a e n (.field (.missing "targetVersion"))
  | time {f : Time.Fault} (version : e.version ≠ .null) (read : e.time.toMomentField = .error f) :
      FailsToShow db a e n (.time f)
  | operations {m : Moment} {f : DatabaseFault} (version : e.version ≠ .null)
      (time : e.time.toMomentField = .ok m)
      (fails : FailsToFetch a n OperationRow.fetch (db.operationsOf e.id) f) :
      FailsToShow db a e n (.database f)
  | operation {m : Moment} {rows : List FetchedOperation} {f : FieldFault}
      (version : e.version ≠ .null) (time : e.time.toMomentField = .ok m)
      (fetched : db.fetchOperations a n e.id = .ok rows)
      (fails : FirstFails FetchedOperation.FailsToRead rows f) : FailsToShow db a e n (.field f)

/-- The first step of reading a history that fails: the statement, the name that is bound to it, the
executions, which are fetched and then read, each with a statement of its own. -/
inductive FailsToTell (db : Database) (a : Access) (name : Value) : StoreFault → Prop where
  | statement {f : DatabaseFault} (fails : a.begin 0 = .error f) :
      FailsToTell db a name (.database f)
  | name {f : DatabaseFault} (runs : a.begin 0 = .ok ()) (bound : Cell.ofValue 1 name = .error f) :
      FailsToTell db a name (.database f)
  | row {c : Cell} {f : DatabaseFault} (runs : a.begin 0 = .ok ())
      (bound : Cell.ofValue 1 name = .ok c)
      (fails : FirstFails (fun e f => e.fetch = .error f) (db.executionsNamed c) f) :
      FailsToTell db a name (.database f)
  | execution {rows : List FetchedExecution} {f : StoreFault}
      (fetched : db.fetchExecutions a name = .ok rows)
      (fails : FirstFails (fun e f => db.FailsToShow a e.1 e.2 f) (rows.zipIdx 1) f) :
      FailsToTell db a name f

/-- The first step of reading the names of all tests that fails: they are fetched, and each of them
is read. -/
inductive FailsToName (db : Database) (a : Access) : StoreFault → Prop where
  | names {f : DatabaseFault} (fails : FailsToFetch a 0 (Cell.fetch "testName") db.names f) :
      FailsToName db a (.database f)
  | name {names : List Value} (fetched : db.fetchNames a = .ok names) (missing : .null ∈ names) :
      FailsToName db a (.field (.missing "testName"))

theorem toTextField_eq_error {v : Value} {field : String} {f : FieldFault} :
    v.toTextField field = .error f ↔ v = .null ∧ f = .missing field := by
  cases v <;> simp [Value.toTextField, eq_comm]

/-- Rows are fetched by a statement, or the first thing that keeps them from that is told. -/
theorem fetch_eq_error {α β : Type} {n : Nat} {fetch : α → Except DatabaseFault β}
    {rows : List α} {f : DatabaseFault} :
    (do a.begin n; rows.mapM fetch) = .error f ↔ FailsToFetch a n fetch rows f := by
  simp only [bind_eq_error, mapM_eq_error]
  constructor
  · rintro (fails | ⟨_, runs, fails⟩)
    · exact .statement fails
    · exact .row runs fails
  · intro h
    cases h with
    | statement fails => exact .inl fails
    | row runs fails => exact .inr ⟨(), runs, fails⟩

theorem fetchOperations_eq_error {n : Nat} {id : Int} {f : DatabaseFault} :
    db.fetchOperations a n id = .error f ↔
      FailsToFetch a n OperationRow.fetch (db.operationsOf id) f :=
  fetch_eq_error

theorem fetchNames_eq_error {f : DatabaseFault} :
    db.fetchNames a = .error f ↔ FailsToFetch a 0 (Cell.fetch "testName") db.names f :=
  fetch_eq_error

/-- Operations are added to results up to the first that cannot be read. -/
theorem foldlM_addTo_eq_error {rows : List FetchedOperation} {r : Results} {f : FieldFault} :
    rows.foldlM FetchedOperation.addTo r = .error f ↔
      FirstFails FetchedOperation.FailsToRead rows f := by
  rw [FetchedOperation.foldlM_addTo_eq, map_eq_error, mapM_eq_error]
  exact firstFails_congr fun o g => FetchedOperation.entry_eq_error

theorem toTextField_of_ne_null {v : Value} (hv : v ≠ .null) (field : String) :
    v.toTextField field = .ok v.display := by
  cases v with
  | null => exact absurd rfl hv
  | _ => rfl

/-- **An execution fails to be read as the first of the steps of that which does.** -/
theorem resultsOf_eq_error {e : FetchedExecution} {n : Nat} :
    db.resultsOf a name n e = .error f ↔ db.FailsToShow a e n f := by
  simp only [resultsOf, bind_eq_error, mapError_eq_error, mapError_eq_ok, toTextField_eq_error,
    fetchOperations_eq_error, foldlM_addTo_eq_error, pure, Except.pure, reduceCtorEq, and_false,
    exists_false, or_false]
  constructor
  · rintro (⟨-, ⟨missing, rfl⟩, rfl⟩ | ⟨v, version, hrest⟩)
    · exact .version missing
    · have version : e.version ≠ .null := by
        rintro hnull
        simp [hnull, Value.toTextField] at version
      rcases hrest with ⟨g, read, rfl⟩ | ⟨m, time, ⟨g, fails, rfl⟩ | ⟨rows, fetched, g, fails, rfl⟩⟩
      · exact .time version read
      · exact .operations version time fails
      · exact .operation version time fetched fails
  · intro h
    cases h with
    | version missing => exact .inl ⟨_, ⟨missing, rfl⟩, rfl⟩
    | time version read => exact .inr ⟨_, toTextField_of_ne_null version _, .inl ⟨_, read, rfl⟩⟩
    | operations version time fails =>
      exact .inr ⟨_, toTextField_of_ne_null version _, .inr ⟨_, time, .inl ⟨_, fails, rfl⟩⟩⟩
    | operation version time fetched fails =>
      exact .inr ⟨_, toTextField_of_ne_null version _,
        .inr ⟨_, time, .inr ⟨_, fetched, _, fails, rfl⟩⟩⟩

/-- **A history fails to be read as the first of the steps of that which does.** -/
theorem history_eq_error : db.history a name = .error f ↔ db.FailsToTell a name f := by
  have hrows (rows : List FetchedExecution) :
      ((rows.zipIdx 1).mapM fun e => db.resultsOf a name e.2 e.1) = .error f ↔
        FirstFails (fun e f => db.FailsToShow a e.1 e.2 f) (rows.zipIdx 1) f := by
    rw [mapM_eq_error]
    exact firstFails_congr fun e g => resultsOf_eq_error
  simp only [history, bind_eq_error, mapError_eq_error, mapError_eq_ok, hrows, pure, Except.pure,
    reduceCtorEq, and_false, exists_false, or_false]
  constructor
  · rintro (⟨g, hfetch, rfl⟩ | ⟨rows, fetched, fails⟩)
    · simp only [fetchExecutions, bind_eq_error, mapM_eq_error] at hfetch
      rcases hfetch with fails | ⟨_, runs, bound | ⟨c, bound, fails⟩⟩
      · exact .statement fails
      · exact .name runs bound
      · exact .row runs bound fails
    · exact .execution fetched fails
  · intro h
    cases h with
    | execution fetched fails => exact .inr ⟨_, fetched, fails⟩
    | statement fails => exact .inl ⟨_, bind_eq_error.mpr (.inl fails), rfl⟩
    | name runs bound =>
      exact .inl ⟨_, bind_eq_error.mpr (.inr ⟨(), runs, bind_eq_error.mpr (.inl bound)⟩), rfl⟩
    | row runs bound fails =>
      refine .inl ⟨_, bind_eq_error.mpr (.inr ⟨(), runs, bind_eq_error.mpr (.inr ?_)⟩), rfl⟩
      exact ⟨_, bound, mapM_eq_error.mpr fails⟩

/-- **The names fail to be read as the first of the steps of that which does.** -/
theorem testNames_eq_error : db.testNames a = .error f ↔ db.FailsToName a f := by
  have hnull (names : List Value) (g : FieldFault) :
      names.mapM (Value.toTextField "testName") = .error g ↔
        .null ∈ names ∧ g = .missing "testName" := by
    rw [mapM_eq_error]
    simp only [toTextField_eq_error, firstFails_const, exists_eq_right]
  simp only [testNames, bind_eq_error, mapError_eq_error, mapError_eq_ok, hnull,
    fetchNames_eq_error]
  constructor
  · rintro (⟨g, fails, rfl⟩ | ⟨names, fetched, g, ⟨missing, rfl⟩, rfl⟩)
    · exact .names fails
    · exact .name fetched missing
  · intro h
    cases h with
    | names fails => exact .inl ⟨_, fails, rfl⟩
    | name fetched missing => exact .inr ⟨_, fetched, _, ⟨missing, rfl⟩, rfl⟩

end Database

end PerfLedger
