import PerfLedger.Proofs.Store.Access
import PerfLedger.Proofs.Store.History

/-!
# Stores of one file

Any number of stores may use one file, each over a connection of its own that it opens and gives up
as it goes along. A run (`Run`) is any sequence of their operations; its log consists of the reports
that answered without an error. As long as nothing else adds rows, the file holds this log
(`Run.holds`), and every store that is served gives the history of each test in it
(`history_of_run`).

The invariant of a run is `Holds`: the rows in the file are those of the log, and whatever
connection a store holds is to that file or broken.
-/

namespace PerfLedger

open Database

/-- A path that leads to a place if it leads anywhere, and that does not stand for memory. -/
def Path.IsOf (p : Path) (place : Place) : Prop :=
  p.place = place ∧ p.toText ≠ Connection.memoryPath

namespace Store

variable {s : Store} {h : Host} {place : Place} {d d' : Storage}

/-- A store for the file at a place. A connection that it holds is to that file, or broken. -/
structure IsAt (s : Store) (place : Place) (d : Storage) : Prop where
  path : s.path.IsOf place
  connection : ∀ c, s.connection = some c →
    c = .broken ∨ ∃ id, c = .file s.path id ∧ d.fileId? s.path = some id

/-- A store gets a working connection, tables can be created, and no statement fails. -/
structure Serves (s : Store) (h : Host) : Prop where
  connection : ∃ c, (s.acquire h).2.1 = .ok c ∧ c.site? ≠ none
  schema : h.failures.schema = none
  statement : h.failures.statement = none

theorem IsAt.mono (hs : s.IsAt place d) (hd : d.Extends d') : s.IsAt place d' := by
  refine ⟨hs.path, ?_⟩
  intro c hc
  rcases hs.connection c hc with hb | ⟨id, hc, hid⟩
  · exact .inl hb
  · exact .inr ⟨id, hc, hd.fileId? hid⟩

theorem isAt_of_connection_eq_none (hp : s.path.IsOf place) (hc : s.connection = none) :
    s.IsAt place d :=
  ⟨hp, fun c hc' => absurd (hc.symm.trans hc') (by simp)⟩

theorem IsAt.isSound (hs : s.IsAt place d) (hd : d.IsSound) : s.IsSound d := by
  intro c hc
  rcases hs.connection c hc with rfl | ⟨id, rfl, hid⟩
  · exact ⟨fun id hid => absurd hid (by simp),
      fun content hc => absurd hc (by simp)⟩
  · exact Connection.isSound_file (hd _ _ (Disk.fileId?_eq_some.mp hid).2)

/-! ## Reaching the file -/

/-- The connection that a store for a file gets is to that file. -/
theorem IsAt.acquire (hs : s.IsAt place h.storage) {c : Connection}
    (hc : (s.acquire h).2.1 = .ok c) :
    c = .broken ∨ ∃ id, c = .file s.path id ∧ (s.acquire h).1.fileId? s.path = some id := by
  rcases acquire_spec hc with ⟨hconn, hd⟩ | ⟨-, hd, hopen⟩
  · rw [hd]
    exact hs.connection c hconn
  · rw [hd]
    rcases Host.connect_opens hopen with ⟨-, hmem⟩ | hfile
    · exact absurd hmem hs.path.2
    · exact .inr hfile

/-- A store for a file reaches the rows of that file, and can write there. -/
theorem IsAt.reaches (hs : s.IsAt place h.storage) (hd : h.storage.IsSound) {c : Connection}
    {db : Database} (hr : s.Reaches h c d db) :
    ∃ id, c = .file s.path id ∧ d.fileId? s.path = some id ∧ d.entry? place = some (.file id) ∧
      h.storage.rowsAt place = .ok db := by
  obtain ⟨hkeep, -, hdb, -⟩ := hr.spec hd (hs.isSound hd)
  obtain ⟨c₀, hc₀, he⟩ := hr
  obtain ⟨-, hsite, he⟩ := Host.ensureTables_ok he
  rcases hs.acquire hc₀ with rfl | ⟨id, rfl, hid⟩
  · exact absurd rfl hsite
  · obtain ⟨rfl, hext⟩ := Connection.ensureTables_file he
    have hid := hext.fileId? hid
    have hentry := (Disk.fileId?_eq_some.mp hid).2
    rw [hs.path.1] at hentry
    refine ⟨id, rfl, hid, hentry, ?_⟩
    rw [← hkeep.rowsAt, Storage.rowsAt_of_file hentry]
    exact hdb

/-- A store that is served reaches the file if there are rows, or may be. -/
theorem IsAt.exists_reaches (hs : s.IsAt place h.storage) {db : Database}
    (hdb : h.storage.rowsAt place = .ok db) (hserves : s.Serves h) :
    ∃ c d, s.Reaches h c d db := by
  obtain ⟨⟨c, hc, hsite⟩, hschema, -⟩ := hserves
  rcases hs.acquire hc with rfl | ⟨id, rfl, hid⟩
  · exact absurd rfl hsite
  · have hentry := (Disk.fileId?_eq_some.mp hid).2
    rw [hs.path.1] at hentry
    rw [← (s.acquire_keeps h).rowsAt, Storage.rowsAt_of_file hentry] at hdb
    obtain ⟨c', d', he⟩ := Connection.ensureTables_of_databaseAt hdb hid
    exact ⟨c', d', .file s.path id, hc, Host.ensureTables_of_ok hschema hsite he⟩

/-! ## Operations -/

/-- An operation of a store for a file fails on the way there and touches no row, or it acts on the
rows of that file. -/
theorem IsAt.run (hs : s.IsAt place h.storage) (hd : h.storage.IsSound) {α : Type}
    (action : Access → Database → Reply α) :
    (s.run h action).store.IsAt place (s.run h action).storage ∧
      (s.run h action).storage.IsSound ∧ h.storage.Extends (s.run h action).storage ∧
      (((∃ f, (s.run h action).result = .error f) ∧
          (s.run h action).storage.rowsAt place = h.storage.rowsAt place) ∨
        ∃ db, h.storage.rowsAt place = .ok db ∧
          (s.run h action).result = (action ⟨true, h.failures.statement⟩ db).result ∧
          (s.run h action).storage.rowsAt place
            = .ok (action ⟨true, h.failures.statement⟩ db).database ∧
          ∃ id, (s.run h action).storage.fileId? s.path = some id) := by
  have hsound := run_isSound hd (hs.isSound hd) action
  rcases s.reaches_or h with ⟨c, d, db, hr⟩ | hr
  · obtain ⟨hkeep, hc, -⟩ := hr.spec hd (hs.isSound hd)
    obtain ⟨id, rfl, hid, hentry, hdb⟩ := hs.reaches hd hr
    -- The path still leads to the file, so the file can be written.
    have hw : h.access d (.file s.path id) = ⟨true, h.failures.statement⟩ := by
      simp [Host.access, Connection.isWritable, hid]
    obtain ⟨hstore, hstorage, hresult⟩ := run_of_reaches hr action
    rw [hw] at hstore hstorage hresult
    have hlt := hc.file_lt id rfl
    have hext := Disk.extends_setContent d id
      (FileContent.database (action ⟨true, h.failures.statement⟩ db).database)
    have hid' : (s.run h action).storage.fileId? s.path = some id := by
      rw [hstorage]
      exact hext.fileId? hid
    refine ⟨⟨?_, ?_⟩, hsound.1, ?_, .inr ⟨db, hdb, hresult, ?_, id, hid'⟩⟩
    · rw [hstore]
      exact hs.path
    · intro c hc
      rw [hstore] at hc ⊢
      exact .inr ⟨id, (Option.some.inj hc).symm, hid'⟩
    · rw [hstorage]
      exact hkeep.ext.trans hext
    · rw [hstorage]
      show Storage.rowsAt (d.setContent id (.database (action _ db).database)) place = _
      rw [Storage.rowsAt_of_file (hext _ _ hentry), Storage.databaseAt_setContent hlt, if_pos rfl]
      rfl
  · obtain ⟨herror, hstore⟩ := run_of_not_reaches hr action
    have hkeep := keeps_of_not_reaches hd (hs.isSound hd) hr action
    refine ⟨?_, hsound.1, hkeep.ext, .inl ⟨herror, hkeep.rowsAt place⟩⟩
    rcases hstore with ⟨hstore, hnone⟩ | hstore
    · rw [hstore]
      exact isAt_of_connection_eq_none hs.path hnone
    · rw [hstore]
      exact isAt_of_connection_eq_none hs.path rfl

/-- What is done with a store, besides reporting. -/
inductive Call where
  | names
  | history (name : Value)
  | close
  | visit (failure : Option String)
  | breakConnection

/-- The store and the disk after a call, whatever it answered. -/
def after (s : Store) (h : Host) : Call → Store × Storage
  | .names => ((s.names h).store, (s.names h).storage)
  | .history name => ((s.history h name).store, (s.history h name).storage)
  | .close => ((s.close h).store, (s.close h).storage)
  | .visit failure => ((s.visit h failure).store, (s.visit h failure).storage)
  | .breakConnection => (s.breakConnection, h.storage)

end Store

/-- A disk that has grown, with the same rows at a place. -/
structure Storage.KeepsAt (place : Place) (d d' : Storage) : Prop where
  ext : d.Extends d'
  sound : d'.IsSound
  rowsAt : d'.rowsAt place = d.rowsAt place

namespace Store

variable {s : Store} {h : Host} {place : Place}

/-- An operation that puts no rows into its database leaves the rows of the file as they are. -/
theorem IsAt.run_keepsAt (hs : s.IsAt place h.storage) (hd : h.storage.IsSound) {α : Type}
    (action : Access → Database → Reply α) (hread : ∀ a db, (action a db).database = db) :
    h.storage.KeepsAt place (s.run h action).storage ∧
      (s.run h action).store.IsAt place (s.run h action).storage := by
  obtain ⟨hat, hsound, hext, hrows⟩ := hs.run hd action
  refine ⟨⟨hext, hsound, ?_⟩, hat⟩
  rcases hrows with ⟨-, hsame⟩ | ⟨db, hdb, -, hdb', -⟩
  · exact hsame
  · rw [hdb', hread, hdb]

/-- A report that answers without an error adds its results to the rows of the file. -/
theorem IsAt.report (hs : s.IsAt place h.storage) (hd : h.storage.IsSound) {r : Results}
    (hok : (s.report h r).result = .ok ()) :
    ∃ db db', h.storage.rowsAt place = .ok db ∧ (s.report h r).storage.rowsAt place = .ok db' ∧
      Gains r r.labelled.length db db' ∧ ∃ id, (s.report h r).storage.fileId? s.path = some id := by
  have hok : (s.run h fun a db => db.record a r).result = .ok () := mapError_eq_ok.mp hok
  obtain ⟨-, -, -, hrows⟩ := hs.run hd fun a db => db.record a r
  rcases hrows with ⟨⟨e, he⟩, -⟩ | ⟨db, hdb, hresult, hafter, hid⟩
  · rw [hok] at he
    exact absurd he (by simp)
  · rw [hok] at hresult
    exact ⟨db, _, hdb, hafter, record_gains hresult.symm, hid⟩

theorem close_spec (s : Store) (h : Host) :
    (s.close h).storage = h.storage ∧ (s.close h).store = { s with connection := none } := by
  obtain ⟨p, c⟩ := s
  cases c with
  | none => exact ⟨rfl, rfl⟩
  | some c => exact ⟨rfl, rfl⟩

/-- A call leaves the rows of the file as they are. -/
theorem IsAt.after (hs : s.IsAt place h.storage) (hd : h.storage.IsSound) (c : Call) :
    h.storage.KeepsAt place (s.after h c).2 ∧ (s.after h c).1.IsAt place (s.after h c).2 := by
  cases c with
  | names => exact hs.run_keepsAt hd _ fun _ _ => rfl
  | history name => exact hs.run_keepsAt hd _ fun _ _ => rfl
  | close =>
    obtain ⟨hstorage, hstore⟩ := s.close_spec h
    simp only [Store.after, hstorage, hstore]
    exact ⟨⟨.refl _, hd, rfl⟩, isAt_of_connection_eq_none hs.path rfl⟩
  | visit failure =>
    obtain ⟨hkeep, hat⟩ := hs.run_keepsAt hd
      (fun a db => { database := db, result := db.testNames a }) fun _ _ => rfl
    obtain ⟨hstorage, hstore⟩ :=
      (s.names h).store.close_spec { h with storage := (s.names h).storage }
    have hvisit : s.after h (.visit failure)
        = ({ (s.names h).store with connection := none }, (s.names h).storage) :=
      Prod.ext hstore hstorage
    rw [hvisit]
    exact ⟨hkeep, isAt_of_connection_eq_none hat.path rfl⟩
  | breakConnection =>
    refine ⟨⟨.refl _, hd, rfl⟩, hs.path, fun c hc => .inl ?_⟩
    exact (Option.some.inj hc).symm

end Store

/-! ## Runs -/

/-- Stores that share a disk. -/
structure Session where
  storage : Storage
  stores : List Store

/-- One step of stores of one file. Reports are logged if they answer without an error; one that
answers an error must not have added rows. -/
inductive Session.Step (place : Place) : Session → List (Path × Results) → Session → Prop where
  | start {d ss} (p : Path) (isOf : p.IsOf place) : Step place ⟨d, ss⟩ [] ⟨d, ss ++ [.new p]⟩
  | report {d before s behind} (failures : Failures) (r : Results)
      (ok : (s.report ⟨d, failures⟩ r).result = .ok ()) :
      Step place ⟨d, before ++ s :: behind⟩ [(s.path, r)]
        ⟨(s.report ⟨d, failures⟩ r).storage,
          before ++ (s.report ⟨d, failures⟩ r).store :: behind⟩
  | refuse {d before s behind e} (failures : Failures) (r : Results)
      (error : (s.report ⟨d, failures⟩ r).result = .error e)
      (rowsAt : (s.report ⟨d, failures⟩ r).storage.rowsAt place = d.rowsAt place) :
      Step place ⟨d, before ++ s :: behind⟩ []
        ⟨(s.report ⟨d, failures⟩ r).storage,
          before ++ (s.report ⟨d, failures⟩ r).store :: behind⟩
  | call {d before s behind} (failures : Failures) (c : Store.Call) :
      Step place ⟨d, before ++ s :: behind⟩ []
        ⟨(s.after ⟨d, failures⟩ c).2, before ++ (s.after ⟨d, failures⟩ c).1 :: behind⟩
  /-- Something else happens on the disk. -/
  | elsewhere {d d' ss} (keepsAt : d.KeepsAt place d') : Step place ⟨d, ss⟩ [] ⟨d', ss⟩

/-- Any number of steps, with the log of the reports that answered without an error. -/
inductive Session.Run (place : Place) (σ : Session) : List (Path × Results) → Session → Prop where
  | done : Run place σ [] σ
  | step {log new σ' σ''} (run : Run place σ log σ') (step : Step place σ' new σ'') :
      Run place σ (log ++ new) σ''

/-- The state of stores that share a file, after a log was reported. -/
structure Session.Holds (place : Place) (log : List (Path × Results)) (σ : Session) : Prop where
  sound : σ.storage.IsSound
  rows : ∃ db, σ.storage.rowsAt place = .ok db ∧ Logs (log.map (·.2)) db
  stores : ∀ s ∈ σ.stores, s.IsAt place σ.storage
  paths : ∀ e ∈ log, e.1.IsOf place ∧ ∃ id, σ.storage.fileId? e.1 = some id

/-- Nothing was reported yet: there are no stores, and no rows in the file. -/
structure Session.IsFresh (place : Place) (σ : Session) : Prop where
  sound : σ.storage.IsSound
  rows : ∃ db, σ.storage.rowsAt place = .ok db ∧ db.executions = [] ∧ db.operations = []
  stores : σ.stores = []

namespace Session

variable {place : Place} {log : List (Path × Results)} {σ σ' : Session}

theorem IsFresh.holds (h : σ.IsFresh place) : σ.Holds place [] := by
  obtain ⟨db, hdb, he, ho⟩ := h.rows
  refine ⟨h.sound, ⟨db, hdb, .empty he ho⟩, ?_, fun e he => absurd he List.not_mem_nil⟩
  intro s hs
  rw [h.stores] at hs
  exact absurd hs List.not_mem_nil

/-- What holds of all stores holds of them when one of them was used. -/
theorem forall_mem_replace {P P' : Store → Prop} {before behind : List Store} {s s' : Store}
    (h : ∀ x ∈ before ++ s :: behind, P x) (hP : ∀ x, P x → P' x) (hs' : P' s') :
    ∀ x ∈ before ++ s' :: behind, P' x := by
  rw [List.forall_mem_append, List.forall_mem_cons] at h ⊢
  exact ⟨fun x hx => hP x (h.1 x hx), hs', fun x hx => hP x (h.2.2 x hx)⟩

/-- What holds of all stores holds of them when one is started. -/
theorem forall_mem_start {P : Store → Prop} {ss : List Store} {s : Store} (h : ∀ x ∈ ss, P x)
    (hs : P s) : ∀ x ∈ ss ++ [s], P x := by
  rw [List.forall_mem_append, List.forall_mem_singleton]
  exact ⟨h, hs⟩

/-- The stores are still of the file when one of them was used and the disk has grown. -/
theorem isAt_replace {d d' : Storage} {before behind : List Store} {s s' : Store}
    (h : ∀ x ∈ before ++ s :: behind, x.IsAt place d) (hext : d.Extends d')
    (hs' : s'.IsAt place d') : ∀ x ∈ before ++ s' :: behind, x.IsAt place d' :=
  forall_mem_replace h (fun _ hx => hx.mono hext) hs'

/-- The paths through which something was reported still lead to the file. -/
theorem Holds.paths_mono {d : Storage} (h : σ.Holds place log) (hext : σ.storage.Extends d) :
    ∀ e ∈ log, e.1.IsOf place ∧ ∃ id, d.fileId? e.1 = some id := by
  intro e he
  obtain ⟨hpath, id, hid⟩ := h.paths e he
  exact ⟨hpath, id, hext.fileId? hid⟩

/-- What a store leaves when it leaves the rows as they were. -/
theorem Holds.replace {d d' : Storage} {before behind : List Store} {s s' : Store}
    (h : Holds place log ⟨d, before ++ s :: behind⟩) (hd : d.KeepsAt place d')
    (hs' : s'.IsAt place d') : Holds place log ⟨d', before ++ s' :: behind⟩ := by
  obtain ⟨db, hdb, hlogs⟩ := h.rows
  exact ⟨hd.sound, ⟨db, hd.rowsAt.trans hdb, hlogs⟩, isAt_replace h.stores hd.ext hs',
    h.paths_mono hd.ext⟩

/-- A report that answers without an error is logged. -/
theorem Holds.report {d : Storage} {before behind : List Store} {s : Store} {f : Failures}
    {r : Results} (h : Holds place log ⟨d, before ++ s :: behind⟩)
    (hok : (s.report ⟨d, f⟩ r).result = .ok ()) :
    Holds place (log ++ [(s.path, r)])
      ⟨(s.report ⟨d, f⟩ r).storage, before ++ (s.report ⟨d, f⟩ r).store :: behind⟩ := by
  have hs := h.stores s (List.mem_append_right _ List.mem_cons_self)
  obtain ⟨db, hdb, hlogs⟩ := h.rows
  obtain ⟨db₀, db', hdb₀, hafter, hgains, id, hid⟩ := hs.report (h := ⟨d, f⟩) h.sound hok
  obtain rfl : db = db₀ := Except.ok.inj (hdb.symm.trans hdb₀)
  obtain ⟨hat, hsound, hext, -⟩ :=
    hs.run (h := ⟨d, f⟩) h.sound fun a db => db.record a r
  refine ⟨hsound, ⟨db', hafter, ?_⟩, isAt_replace h.stores hext hat, ?_⟩
  · rw [List.map_append]
    exact .report hlogs hgains
  · intro e he
    rcases List.mem_append.mp he with he | he
    · exact h.paths_mono hext e he
    · rw [List.mem_singleton.mp he]
      exact ⟨hs.path, id, hid⟩

/-- **A step keeps the log.** -/
theorem Step.holds {new : List (Path × Results)} (hstep : Step place σ new σ')
    (h : σ.Holds place log) : σ'.Holds place (log ++ new) := by
  cases hstep with
  | start p isOf =>
    rw [List.append_nil]
    exact ⟨h.sound, h.rows,
      forall_mem_start h.stores (Store.isAt_of_connection_eq_none isOf rfl), h.paths⟩
  | report f r ok => exact h.report ok
  | @refuse d before s behind e f r error rowsAt =>
    have hs := h.stores s (List.mem_append_right _ List.mem_cons_self)
    obtain ⟨hat, hsound, hext, -⟩ :=
      hs.run (h := ⟨d, f⟩) h.sound fun a db => db.record a r
    rw [List.append_nil]
    exact h.replace ⟨hext, hsound, rowsAt⟩ hat
  | @call d before s behind f c =>
    have hs := h.stores s (List.mem_append_right _ List.mem_cons_self)
    obtain ⟨hkeep, hat⟩ := hs.after (h := ⟨d, f⟩) h.sound c
    rw [List.append_nil]
    exact h.replace hkeep hat
  | elsewhere keepsAt =>
    obtain ⟨db, hdb, hlogs⟩ := h.rows
    rw [List.append_nil]
    exact ⟨keepsAt.sound, ⟨db, keepsAt.rowsAt.trans hdb, hlogs⟩,
      fun s hs => (h.stores s hs).mono keepsAt.ext, h.paths_mono keepsAt.ext⟩

/-- **A run keeps the log.** -/
theorem Run.holds (hrun : Run place σ log σ') (h : σ.IsFresh place) : σ'.Holds place log := by
  induction hrun with
  | done => exact h.holds
  | step _ hstep ih => exact hstep.holds ih

end Session

namespace Store

/-- A store on a path that leads to the file is served if nothing fails. -/
theorem serves_of_fileId? {d : Storage} {p : Path} {id : Nat}
    (hp : p.toText ≠ Connection.memoryPath) (h : d.fileId? p = some id) :
    (new p).Serves ⟨d, {}⟩ := by
  refine ⟨⟨.file p id, ?_, by simp⟩, rfl, rfl⟩
  simp only [Store.acquire, new, Host.connect_of_fileId? (f := {}) hp rfl h]

end Store

/-! ## Histories -/

/--
**Stores of one file keep a log.**

Let any number of stores of one file, without rows at first, be started, used and closed in any
order. Then each store of the file that is served answers, for every name, the history of that name
in the log of the reports that answered without an error; and on each path through which something
was reported a new store is served, if nothing fails.
-/
theorem history_of_run {place : Place} {log : List (Path × Results)} {σ σ' : Session}
    (hfresh : σ.IsFresh place) (hrun : σ.Run place log σ') (hplain : ∀ e ∈ log, e.2.IsPlain)
    (n : String) :
    (∀ (s : Store) (f : Failures),
      (s ∈ σ'.stores ∨ ∃ p : Path, p.IsOf place ∧ s = .new p) → s.Serves ⟨σ'.storage, f⟩ →
      ∃ found, (s.history ⟨σ'.storage, f⟩ (.text n)).result = .ok found ∧
        found.Lists (log.map (·.2)) n) ∧
      ∀ e ∈ log, (Store.new e.1).Serves ⟨σ'.storage, {}⟩ := by
  have hholds := hrun.holds hfresh
  constructor
  · intro s f hs hserves
    have hat : s.IsAt place σ'.storage := by
      rcases hs with hs | ⟨p, hp, rfl⟩
      · exact hholds.stores s hs
      · exact Store.isAt_of_connection_eq_none hp rfl
    obtain ⟨db, hdb, hlogs⟩ := hholds.rows
    have hplain : ∀ r ∈ log.map (·.2), r.IsPlain := by
      intro r hr
      obtain ⟨e, he, rfl⟩ := List.mem_map.mp hr
      exact hplain e he
    obtain ⟨found, hfound, hlists⟩ := history_of_logs hlogs hplain n
    obtain ⟨c, d, hr⟩ := hat.exists_reaches (h := ⟨σ'.storage, f⟩) hdb hserves
    refine ⟨found, ?_, hlists⟩
    rw [hr.history_result, hfound _ hserves.statement]
    rfl
  · intro e he
    obtain ⟨hp, id, hid⟩ := hholds.paths e he
    exact Store.serves_of_fileId? hp.2 hid

/-! ## A sample -/

/-- A store on a disk with nothing on it. -/
def sampleStore : Store :=
  .new ⟨"", ["a.db"]⟩

/-- An operation whose measures are in base units after they were converted. -/
def sampleOperation : Operation where
  time := ⟨.finite false 15 (-1), .second⟩
  memory := ⟨.finite false 3 2, .kilobyte⟩

/-- Results with one baseline. -/
def sampleResults : Results where
  name := .text "n"
  version := .text "2"
  time := ⟨⟨2026, 1, 1, 12, 0, 0, 0⟩, .offset 0⟩
  current := [sampleOperation]
  baselines := [("1", { version := .text "1", operations := [sampleOperation, sampleOperation] })]

theorem sample_isOf : sampleStore.path.IsOf sampleStore.path.place :=
  ⟨rfl, by decide⟩

theorem sample_reported : (sampleStore.report {} sampleResults).result = .ok () := by
  decide +kernel

theorem snd_mem_sample {e : Value × Operation} (he : e ∈ sampleResults.labelled) :
    e.2 = sampleOperation := by
  have hlabelled : sampleResults.labelled
      = [(.null, sampleOperation), (.text "1", sampleOperation), (.text "1", sampleOperation)] :=
    rfl
  rw [hlabelled] at he
  rcases List.mem_cons.mp he with rfl | he
  · rfl
  · rcases List.mem_cons.mp he with rfl | he
    · rfl
    · rw [List.mem_singleton.mp he]

theorem sample_isPlain : sampleResults.IsPlain := by
  refine ⟨⟨_, rfl⟩, ⟨_, rfl⟩, ?_, by decide, ?_, ?_⟩
  · intro e he
    rw [List.mem_singleton.mp he]
    exact ⟨_, rfl⟩
  · intro u hu
    rw [← Except.ok.inj hu]
    decide
  · intro e he
    rw [snd_mem_sample he]
    constructor
    · show Decimal.inRange 15 (-1) = true
      decide +kernel
    · show Decimal.inRange 3 2 = true
      decide +kernel

/-- One report through one store, on a disk with nothing on it. -/
theorem history_of_run_once :
    ∃ σ, Session.IsFresh sampleStore.path.place ⟨{}, []⟩ ∧
      Session.Run sampleStore.path.place ⟨{}, []⟩ [(sampleStore.path, sampleResults)] σ ∧
      ∃ found, (sampleStore.history ⟨σ.storage, {}⟩ (.text "n")).result = .ok found ∧
        found.Lists [sampleResults] "n" := by
  have hfresh : Session.IsFresh sampleStore.path.place ⟨{}, []⟩ :=
    ⟨Disk.isSound_empty, ⟨{}, rfl, rfl, rfl⟩, rfl⟩
  have hrun : Session.Run sampleStore.path.place ⟨{}, []⟩ [(sampleStore.path, sampleResults)]
      ⟨(sampleStore.report {} sampleResults).storage,
        [(sampleStore.report {} sampleResults).store]⟩ :=
    (Session.Run.done.step (.start _ sample_isOf)).step
      (show Session.Step sampleStore.path.place ⟨{}, [] ++ sampleStore :: []⟩ _ _ from
        .report {} sampleResults sample_reported)
  have hhistory := history_of_run hfresh hrun
    (fun e he => List.mem_singleton.mp he ▸ sample_isPlain) "n"
  obtain ⟨found, hfound, hlists⟩ := hhistory.1 sampleStore {} (.inr ⟨_, sample_isOf, rfl⟩)
    (hhistory.2 _ List.mem_cons_self)
  exact ⟨_, hfresh, hrun, found, hfound, hlists⟩

end PerfLedger
