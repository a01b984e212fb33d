import PerfLedger.Store.Direct
import PerfLedger.Proofs.Database.Growth
import PerfLedger.Proofs.Store.Residue
import PerfLedger.Proofs.Store.Session

/-!
# The integrity of the tables

Stores report, read and are closed, in any order and whatever fails; rows are put in by hand over
connections of their own, whatever values they have. An act of such a session (`Session.Act`) only
ever puts rows into databases, one after the other, and a database in memory ends with the
connection to it (`Act.spec`).

So each database of a session is regular, and its rows are kept (`regular_of_acts`).
-/

namespace PerfLedger

open Database

/-! ## Disks -/

/-- A disk on which rows were only put into databases. -/
structure Storage.Grows (d d' : Storage) : Prop where
  length_le : d.files.length ≤ d'.files.length
  databaseAt (id : Nat) : Agree Database.Grows (d.databaseAt id) (d'.databaseAt id)
  sound : d.IsSound → d'.IsSound

namespace Storage

variable {d d' d'' : Storage}

theorem Keeps.grows (h : d.Keeps d') : d.Grows d' :=
  ⟨h.length_le, fun id => .of_eq Database.Grows.refl (h.databaseAt id).symm, h.sound⟩

theorem Grows.refl (d : Storage) : d.Grows d :=
  (Keeps.refl d).grows

theorem Grows.trans (h : d.Grows d') (h' : d'.Grows d'') : d.Grows d'' :=
  ⟨Nat.le_trans h.length_le h'.length_le,
    fun id => (h.databaseAt id).comp (h'.databaseAt id) fun _ _ _ => Database.Grows.trans,
    fun hd => h'.sound (h.sound hd)⟩

/-- Writing a database that has grown. -/
theorem grows_write {c : Connection} {db db' : Database} (hc : c.IsSound d)
    (hsite : c.site? ≠ none) (h : (c.content d).prepared = .ok db) (hg : db.Grows db') :
    d.Grows (c.write d db').1 := by
  obtain ⟨-, hprep, hother, -, hlen, hsound⟩ := Connection.write_spec hc hsite db'
  refine ⟨Nat.le_of_eq hlen.symm, ?_, hsound⟩
  intro id
  by_cases hid : c.site? = some (.file id)
  · cases c with
    | file p j =>
      obtain rfl : j = id := by simpa using hid
      have hbefore : d.databaseAt j = .ok db := h
      have hafter : databaseAt (d.setContent j (.database db')) j = .ok db' := hprep
      show Agree _ _ (databaseAt (d.setContent j (.database db')) j)
      rw [hbefore, hafter]
      exact .ok hg
    | memory content => exact absurd hid (by simp)
    | broken => exact absurd hid (by simp)
  · exact .of_eq Database.Grows.refl (hother id hid).symm

end Storage

/-! ## Rows put in by hand -/

namespace Host

variable {h : Host} {p : Path} {row : List Operand}

theorem putRow_grows (hd : h.storage.IsSound)
    {insert : Database → List Cell → Except DatabaseFault (Database × Int)}
    (hinsert : ∀ db cells db' n, insert db cells = .ok (db', n) → db.Grows db') :
    h.storage.Grows (h.putRow p row insert).1 := by
  have hconn := (h.connect_keeps p).grows
  unfold putRow
  split
  · next heq => rwa [heq] at hconn
  · next d c heq =>
    have hopen := connect_opens (h := h) (p := p) (c := c) (by rw [heq])
    obtain ⟨hsound, hsite⟩ := hopen.isSound hd
    rw [heq] at hconn hsound
    split
    · exact hconn
    · next d' c' db htables =>
      obtain ⟨hkeep, hsound', hsite', -, hdb⟩ :=
        Connection.ensureTables_spec hsound hsite htables
      have hprep := hconn.trans hkeep.grows
      split
      · exact hprep
      · split
        · exact hprep
        · next db' n hok =>
          exact hprep.trans (Storage.grows_write hsound' (hsite'.symm ▸ hsite) hdb
            (hinsert db _ db' n hok))

theorem putExecution_grows (hd : h.storage.IsSound) :
    h.storage.Grows (h.putExecution p row).1 :=
  putRow_grows hd fun _ _ _ _ hok => (Insertion.execution hok).grows

theorem putOperation_grows (hd : h.storage.IsSound) (number : Option Operand) :
    h.storage.Grows (h.putOperation p number row).1 :=
  putRow_grows hd fun _ _ _ _ hok => (Insertion.operation hok).grows

end Host

/-! ## Operations of stores -/

theorem Connection.IsSound.mono {c : Connection} {d d' : Storage} (hc : c.IsSound d)
    (h : d.files.length ≤ d'.files.length) : c.IsSound d' :=
  ⟨fun id hid => Nat.lt_of_lt_of_le (hc.file_lt id hid) h, hc.memory⟩

namespace Store

variable {s s' : Store} {h : Host} {d d' : Storage}

theorem IsSound.mono (hs : s.IsSound d) (h : d.files.length ≤ d'.files.length) : s.IsSound d' :=
  fun c hc => (hs c hc).mono h

/-- What a store and the disk become when rows are only put in. -/
structure Grows (s : Store) (d : Storage) (s' : Store) (d' : Storage) : Prop where
  storage : d.Grows d'
  sound : s'.IsSound d'
  memory : ∀ content, s'.connection = some (.memory content) →
    Agree Database.Grows s.memoryDatabase content.prepared

theorem grows_of_connection_eq_none (hd : d.Grows d') (hs : s'.connection = none) :
    s.Grows d s' d' :=
  ⟨hd, fun c hc => absurd (hs.symm.trans hc) (by simp),
    fun content hc => absurd (hs.symm.trans hc) (by simp)⟩

/-- A store has written a database that has grown over its connection. -/
theorem grows_of_write {c : Connection} {db db' : Database} {l : Site} (hkeep : d.Keeps d')
    (hc : c.IsSound d') (hl : c.site? = some l) (hdb : (c.content d').prepared = .ok db)
    (hat : s.databaseAt d l = .ok db) (hg : db.Grows db')
    (hs' : s'.connection = some (c.write d' db').2) : s.Grows d s' (c.write d' db').1 := by
  refine ⟨hkeep.grows.trans (Storage.grows_write hc (by simp [hl]) hdb hg), ?_, ?_⟩
  · intro x hx
    rw [← Option.some.inj (hs'.symm.trans hx)]
    exact Connection.write_isSound hc db'
  · intro content hcontent
    have hwrite := Option.some.inj (hs'.symm.trans hcontent)
    -- Only a connection to memory is written to one.
    cases c with
    | file p id => exact absurd hwrite (by simp [Connection.write, Connection.put])
    | memory content' =>
      obtain rfl : Site.memory = l := by simpa using hl
      rw [← Connection.memory.inj hwrite]
      have hmem : s.memoryDatabase = .ok db := hat
      rw [hmem]
      exact .ok hg
    | broken => exact absurd hl (by simp)

/-- An operation whose action only puts in rows. -/
theorem run_grows (hd : h.storage.IsSound) (hs : s.IsSound h.storage) {α : Type}
    (action : Access → Database → Reply α)
    (hgrows : ∀ a (db : Database), db.Grows (action a db).database) :
    s.Grows h.storage (s.run h action).store (s.run h action).storage := by
  rcases s.reaches_or h with ⟨c, d, db, hr⟩ | hr
  · obtain ⟨hkeep, hc, hdb, l, hl, hat⟩ := hr.spec hd hs
    obtain ⟨hstore, hstorage, -⟩ := run_of_reaches hr action
    rw [hstorage]
    exact grows_of_write hkeep hc hl hdb hat (hgrows _ db) (congrArg connection hstore)
  · obtain ⟨-, hstore⟩ := run_of_not_reaches hr action
    refine grows_of_connection_eq_none (keeps_of_not_reaches hd hs hr action).grows ?_
    rcases hstore with ⟨hstore, hnone⟩ | hstore
    · rw [hstore, hnone]
    · rw [hstore]

theorem report_grows (hd : h.storage.IsSound) (hs : s.IsSound h.storage) (r : Results) :
    s.Grows h.storage (s.report h r).store (s.report h r).storage :=
  run_grows hd hs _ fun a db => db.record_grows a r

theorem names_grows (hd : h.storage.IsSound) (hs : s.IsSound h.storage) :
    s.Grows h.storage (s.names h).store (s.names h).storage :=
  run_grows hd hs _ fun _ db => .refl db

theorem after_grows (hd : h.storage.IsSound) (hs : s.IsSound h.storage) (c : Call) :
    s.Grows h.storage (s.after h c).1 (s.after h c).2 := by
  cases c with
  | names => exact names_grows hd hs
  | history name => exact run_grows hd hs _ fun _ db => .refl db
  | close =>
    obtain ⟨hstorage, hstore⟩ := s.close_spec h
    simp only [Store.after, hstorage, hstore]
    exact grows_of_connection_eq_none (.refl _) rfl
  | visit failure =>
    obtain ⟨hstorage, hstore⟩ :=
      (s.names h).store.close_spec { h with storage := (s.names h).storage }
    have hvisit : s.after h (.visit failure)
        = ({ (s.names h).store with connection := none }, (s.names h).storage) :=
      Prod.ext hstore hstorage
    rw [hvisit]
    exact grows_of_connection_eq_none (names_grows hd hs).storage rfl
  | breakConnection =>
    refine ⟨.refl _, ?_, fun content hc => absurd (Option.some.inj hc) (by simp)⟩
    intro c hc
    rw [← Option.some.inj hc]
    exact ⟨fun id hid => absurd hid (by simp), fun content hc => absurd hc (by simp)⟩

end Store

/-! ## Sessions -/

namespace Session

/-- Where a session has a database: in the file with a number, or in the memory of the connection
that the store at a position holds. -/
inductive Locus where
  | file (id : Nat)
  | memory (position : Nat)

/-- A session has a database somewhere. -/
def Has (σ : Session) : Locus → Database → Prop
  | .file id, db => σ.storage.databaseAt id = .ok db
  | .memory i, db => ∃ s content, σ.stores[i]? = some s ∧ s.connection = some (.memory content) ∧
      content.prepared = .ok db

/-- One act of a session: a store is started, reports, is read or closed, or a row is put in by
hand, whatever fails and whatever is answered. A row is put in over a connection that is opened for
it, or over one that is held. -/
inductive Act : Session → Session → Prop where
  | start {d ss} (p : Path) : Act ⟨d, ss⟩ ⟨d, ss ++ [.new p]⟩
  | report {d before s behind} (failures : Failures) (r : Results) :
      Act ⟨d, before ++ s :: behind⟩ ⟨(s.report ⟨d, failures⟩ r).storage,
        before ++ (s.report ⟨d, failures⟩ r).store :: behind⟩
  | call {d before s behind} (failures : Failures) (c : Store.Call) :
      Act ⟨d, before ++ s :: behind⟩
        ⟨(s.after ⟨d, failures⟩ c).2, before ++ (s.after ⟨d, failures⟩ c).1 :: behind⟩
  | putExecution {d ss} (failures : Failures) (p : Path) (row : List Operand) :
      Act ⟨d, ss⟩ ⟨(Host.putExecution ⟨d, failures⟩ p row).1, ss⟩
  | putOperation {d ss} (failures : Failures) (p : Path) (number : Option Operand)
      (row : List Operand) :
      Act ⟨d, ss⟩ ⟨(Host.putOperation ⟨d, failures⟩ p number row).1, ss⟩
  | put {d before s behind c db db'} (held : s.connection = some c) (works : c.site? ≠ none)
      (found : (c.content d).prepared = .ok db) (accepted : Insertion db db') :
      Act ⟨d, before ++ s :: behind⟩ ⟨(c.write d db').1,
        before ++ { s with connection := some (c.write d db').2 } :: behind⟩

/-- Any number of acts. -/
abbrev Acts : Session → Session → Prop :=
  Relation.ReflTransGen Act

/-- Files and connections exist. -/
structure IsSound (σ : Session) : Prop where
  storage : σ.storage.IsSound
  stores : ∀ s ∈ σ.stores, s.IsSound σ.storage

variable {σ τ : Session}

theorem Has.unique {l : Locus} {db db' : Database} (h : σ.Has l db) (h' : σ.Has l db') :
    db = db' := by
  cases l with
  | file id => exact Except.ok.inj (h.symm.trans h')
  | memory i =>
    obtain ⟨s, content, hs, hc, hdb⟩ := h
    obtain ⟨s', content', hs', hc', hdb'⟩ := h'
    obtain rfl := Option.some.inj (hs.symm.trans hs')
    obtain rfl := Connection.memory.inj (Option.some.inj (hc.symm.trans hc'))
    exact Except.ok.inj (hdb.symm.trans hdb')

/-- A database that a session has after an act is one that it had, with more rows, or a new one. -/
def Stems (σ : Session) (l : Locus) (after : Database) : Prop :=
  (∃ before, σ.Has l before ∧ before.Grows after) ∨
    ((∀ before, ¬σ.Has l before) ∧ Database.Grows {} after)

theorem stems_of_has {l : Locus} {db : Database} (h : σ.Has l db) : σ.Stems l db :=
  .inl ⟨db, h, .refl db⟩

theorem stems_file {d : Storage} {ss : List Store} {d' : Storage} (hd : d.Grows d') {id : Nat}
    {db : Database} (h : d'.databaseAt id = .ok db) : Stems ⟨d, ss⟩ (.file id) db := by
  have hagree := hd.databaseAt id
  rw [h] at hagree
  exact .inl hagree.exists_ok_left

/-- The other stores stay at their positions. -/
theorem getElem?_replace {before behind : List Store} {s s' : Store} {i : Nat}
    (hi : i ≠ before.length) :
    (before ++ s' :: behind)[i]? = (before ++ s :: behind)[i]? := by
  rw [List.getElem?_append, List.getElem?_append]
  split
  · rfl
  · obtain ⟨k, hk⟩ : ∃ k, i - before.length = k + 1 := ⟨i - before.length - 1, by omega⟩
    rw [hk, List.getElem?_cons_succ, List.getElem?_cons_succ]

/-- One store was used, and rows were only put in. -/
theorem spec_replace {d d' : Storage} {before behind : List Store} {s s' : Store}
    (hσ : IsSound ⟨d, before ++ s :: behind⟩) (hg : s.Grows d s' d') :
    IsSound ⟨d', before ++ s' :: behind⟩ ∧ d.Grows d' ∧ ∀ l after,
      Has ⟨d', before ++ s' :: behind⟩ l after → Stems ⟨d, before ++ s :: behind⟩ l after := by
  refine ⟨?_, hg.storage, ?_⟩
  · exact ⟨hg.storage.sound hσ.storage, forall_mem_replace hσ.stores
      (fun _ hx => hx.mono hg.storage.length_le) hg.sound⟩
  · intro l after hafter
    cases l with
    | file id => exact stems_file hg.storage hafter
    | memory i =>
      obtain ⟨x, content, hx, hc, hdb⟩ := hafter
      by_cases hi : i = before.length
      · -- The store that was used.
        have hx' : x = s' := by simpa [hi] using hx.symm
        have hs : (before ++ s :: behind)[i]? = some s := by simp [hi]
        subst hx'
        have hagree := hg.memory content hc
        rw [hdb] at hagree
        obtain ⟨db, hmem, hgrows⟩ := hagree.exists_ok_left
        by_cases hold : ∃ content, s.connection = some (.memory content)
        · obtain ⟨content₀, hc₀⟩ := hold
          refine .inl ⟨db, ⟨s, content₀, hs, hc₀, ?_⟩, hgrows⟩
          rwa [Store.memoryDatabase, hc₀] at hmem
        · refine .inr ⟨?_, ?_⟩
          · rintro db₀ ⟨y, content₀, hy, hc₀, -⟩
            obtain rfl := Option.some.inj (hs.symm.trans hy)
            exact hold ⟨content₀, hc₀⟩
          · rw [Store.memoryDatabase_eq fun content hc => hold ⟨content, hc⟩] at hmem
            exact Except.ok.inj hmem ▸ hgrows
      · exact stems_of_has ⟨x, content, (getElem?_replace hi).symm.trans hx, hc, hdb⟩

/-- Rows were put in by hand. -/
theorem spec_put {d d' : Storage} {ss : List Store} (hσ : IsSound ⟨d, ss⟩) (hg : d.Grows d') :
    IsSound ⟨d', ss⟩ ∧ d.Grows d' ∧
      ∀ l after, Has ⟨d', ss⟩ l after → Stems ⟨d, ss⟩ l after := by
  refine ⟨⟨hg.sound hσ.storage, fun s hs => (hσ.stores s hs).mono hg.length_le⟩, hg, ?_⟩
  intro l after hafter
  cases l with
  | file id => exact stems_file hg hafter
  | memory i => exact stems_of_has (l := .memory i) hafter

/-- **An act only puts in rows.** -/
theorem Act.spec (h : Act σ τ) (hσ : σ.IsSound) :
    τ.IsSound ∧ σ.storage.Grows τ.storage ∧ ∀ l after, τ.Has l after → σ.Stems l after := by
  cases h with
  | @start d ss p =>
    refine ⟨?_, .refl d, ?_⟩
    · exact ⟨hσ.storage, forall_mem_start hσ.stores (Store.new_isSound p d)⟩
    · intro l after hafter
      cases l with
      | file id => exact stems_of_has (l := .file id) hafter
      | memory i =>
        obtain ⟨s, content, hs, hc, hdb⟩ := hafter
        rcases List.mem_append.mp (List.mem_of_getElem? hs) with hmem | hmem
        · have hs : (ss ++ [Store.new p])[i]? = some s := hs
          rw [List.getElem?_append] at hs
          split at hs
          · exact stems_of_has ⟨s, content, hs, hc, hdb⟩
          · have hnew := List.mem_singleton.mp (List.mem_of_getElem? hs)
            rw [hnew] at hc
            exact absurd hc (by simp [Store.new])
        · rw [List.mem_singleton.mp hmem] at hc
          exact absurd hc (by simp [Store.new])
  | @report d before s behind failures r =>
    have hs := hσ.stores s (List.mem_append_right _ List.mem_cons_self)
    exact spec_replace hσ (Store.report_grows (h := ⟨d, failures⟩) hσ.storage hs r)
  | @call d before s behind failures c =>
    have hs := hσ.stores s (List.mem_append_right _ List.mem_cons_self)
    exact spec_replace hσ (Store.after_grows (h := ⟨d, failures⟩) hσ.storage hs c)
  | @putExecution d ss failures p row =>
    exact spec_put hσ (Host.putExecution_grows (h := ⟨d, failures⟩) hσ.storage)
  | @putOperation d ss failures p number row =>
    exact spec_put hσ (Host.putOperation_grows (h := ⟨d, failures⟩) hσ.storage number)
  | @put d before s behind c db db' held works found accepted =>
    have hs := hσ.stores s (List.mem_append_right _ List.mem_cons_self)
    obtain ⟨l, hl⟩ := Option.ne_none_iff_exists'.mp works
    have hat : s.databaseAt d l = .ok db := by
      rw [Store.databaseAt_of_connection held hl]
      exact found
    exact spec_replace hσ
      (Store.grows_of_write (.refl d) (hs c held) hl found hat accepted.grows rfl)

/-! ## Runs -/

/-- Nothing was put in yet: there are no stores, and no file is a database. -/
structure IsBlank (σ : Session) : Prop where
  storage : σ.storage.IsSound
  files : ∀ content ∈ σ.storage.files, ∀ db, content ≠ .database db
  stores : σ.stores = []

/-- The invariant of a session: all its databases are regular. -/
structure IsRegular (σ : Session) : Prop where
  sound : σ.IsSound
  databases : ∀ l db, σ.Has l db → db.IsRegular

theorem IsBlank.databaseAt_eq (h : σ.IsBlank) {id : Nat} {db : Database}
    (hdb : σ.storage.databaseAt id = .ok db) : db = {} := by
  obtain ⟨found, hfound, rfl⟩ := map_eq_ok.mp hdb
  cases found with
  | none => rfl
  | some db =>
    have hcontent := FileContent.database?_getD_eq_some.mp hfound
    exact absurd rfl (h.files _ (List.mem_of_getElem? hcontent) db)

theorem IsBlank.isRegular (h : σ.IsBlank) : σ.IsRegular := by
  refine ⟨⟨h.storage, fun s hs => absurd (h.stores ▸ hs) List.not_mem_nil⟩, ?_⟩
  intro l db hdb
  cases l with
  | file id =>
    rw [h.databaseAt_eq hdb]
    exact isRegular_of_eq_nil rfl rfl
  | memory i =>
    obtain ⟨s, -, hs, -⟩ := hdb
    rw [h.stores] at hs
    simp at hs

/-- **An act keeps databases regular.** -/
theorem IsRegular.act (hσ : σ.IsRegular) (h : Act σ τ) : τ.IsRegular := by
  obtain ⟨hsound, -, hstems⟩ := h.spec hσ.sound
  refine ⟨hsound, ?_⟩
  intro l after hafter
  rcases hstems l after hafter with ⟨before, hbefore, hgrows⟩ | ⟨-, hgrows⟩
  · exact hgrows.isRegular (hσ.databases l before hbefore)
  · exact hgrows.isRegular (isRegular_of_eq_nil rfl rfl)

theorem IsRegular.acts (hσ : σ.IsRegular) (h : Acts σ τ) : τ.IsRegular := by
  induction h with
  | refl => exact hσ
  | tail _ hact ih => exact ih.act hact

theorem IsRegular.acts_grows (hσ : σ.IsRegular) (h : Acts σ τ) : σ.storage.Grows τ.storage := by
  induction h with
  | refl => exact .refl _
  | tail hacts hact ih => exact ih.trans (hact.spec (hσ.acts hacts).sound).2.1

/-- Whatever a store of the session finds is regular. -/
theorem IsRegular.databaseAt (hσ : σ.IsRegular) {s : Store} (hs : s ∈ σ.stores) {l : Site}
    {db : Database} (hdb : s.databaseAt σ.storage l = .ok db) : db.IsRegular := by
  cases l with
  | file id => exact hσ.databases (.file id) db hdb
  | memory =>
    by_cases hc : ∃ content, s.connection = some (.memory content)
    · obtain ⟨content, hc⟩ := hc
      obtain ⟨i, hi⟩ := List.mem_iff_getElem?.mp hs
      have hmem : s.memoryDatabase = .ok db := hdb
      rw [Store.memoryDatabase, hc] at hmem
      exact hσ.databases (.memory i) db ⟨s, content, hi, hc, hmem⟩
    · have hmem : s.memoryDatabase = .ok db := hdb
      rw [Store.memoryDatabase_eq fun content h => hc ⟨content, h⟩] at hmem
      rw [← Except.ok.inj hmem]
      exact isRegular_of_eq_nil rfl rfl

end Session

/-! ## New executions -/

/-- A new execution of results: its time is their stamp, as a text, and its number is larger than
those of all executions before it. -/
structure ExecutionRow.Enters (r : Results) (before : Database) (row : ExecutionRow) : Prop where
  time : ∃ t, Time.stamp r.time = .ok t ∧ row.time = .text t
  lt : ∀ e ∈ before.executions, e.id < row.id

theorem Database.Gains.enters {r : Results} {k : Nat} {before after : Database}
    (h : Gains r k before after) (hbefore : before.IsRegular) {row : ExecutionRow}
    (hrow : row ∈ after.executions) (hnew : row ∉ before.executions) : row.Enters r before := by
  obtain ⟨added, rows, hadded, hid, -, -, -, rfl⟩ := h.added
  rcases List.mem_append.mp hrow with hmem | hmem
  · exact absurd hmem hnew
  · obtain rfl := List.mem_singleton.mp hmem
    refine ⟨hadded.time, ?_⟩
    intro e he
    have hle := hbefore.id_le e he
    omega

/-- **A report enters its execution under a number that is larger than all others.** -/
theorem Store.report_enters {s : Store} {h : Host} {r : Results} (hd : h.storage.IsSound)
    (hs : s.IsSound h.storage) {l : Site} {before after : Database}
    (hbefore : s.databaseAt h.storage l = .ok before) (hregular : before.IsRegular)
    (hafter : (s.report h r).store.databaseAt (s.report h r).storage l = .ok after)
    {row : ExecutionRow} (hrow : row ∈ after.executions) (hnew : row ∉ before.executions) :
    row.Enters r before := by
  rcases s.reaches_or h with ⟨c, d, db, hr⟩ | hr
  · obtain ⟨-, -, -, l', hl', hdb⟩ := hr.spec hd hs
    obtain ⟨hat, hother, -⟩ := report_of_reaches (r := r) hd hs hr hl'
    by_cases hll : l = l'
    · subst hll
      obtain rfl := Except.ok.inj (hdb.symm.trans hbefore)
      rw [hat] at hafter
      obtain rfl := Except.ok.inj hafter
      rcases db.record_spec (h.access d c) r with ⟨-, hsame⟩ | ⟨k, hgains, -⟩
      · rw [hsame] at hrow
        exact absurd hrow hnew
      · exact hgains.enters hregular hrow hnew
    · -- Nothing was written there.
      rw [hother l hll, hbefore] at hafter
      rw [← Except.ok.inj hafter] at hrow
      exact absurd hrow hnew
  · cases l with
    | file id =>
      have hafter : (s.report h r).storage.databaseAt id = .ok after := hafter
      rw [files_of_not_reaches hd hs hr id] at hafter
      rw [← Except.ok.inj (hbefore.symm.trans hafter)] at hrow
      exact absurd hrow hnew
    | memory =>
      rw [← Except.ok.inj ((report_of_not_reaches hr).2.symm.trans hafter)] at hrow
      exact absurd hrow List.not_mem_nil

/-! ## The invariant -/

namespace Session

/--
**The tables keep their integrity.**

Let a session begin without a database, get to some state, and then to a later one, by any acts.
Then every database that it has is regular, and every database in a file has kept what it held at
the earlier state.

The next act, if it is one, only puts in rows, and it leaves every database regular and with what it
held, at its end and at each point on the way there. If it is a report, an execution that is new has
the stamp of the results as its time, and a number larger than those of all executions that are
there or ever were.
-/
theorem regular_of_acts {σ₀ ρ σ : Session} (hblank : σ₀.IsBlank) (hearly : Acts σ₀ ρ)
    (hlate : Acts ρ σ) :
    (∀ l db, σ.Has l db → db.IsRegular) ∧
      (∀ id early, ρ.storage.databaseAt id = .ok early →
        ∃ late, σ.storage.databaseAt id = .ok late ∧ early.Keeps late) ∧
      (∀ τ, Act σ τ → ∀ l before after, σ.Has l before → τ.Has l after → before.Grows after ∧
        ∀ between, before.Grows between → between.Grows after →
          between.IsRegular ∧ before.Keeps between ∧ between.Keeps after) ∧
      ∀ s ∈ σ.stores, ∀ (failures : Failures) (r : Results) l before after,
        s.databaseAt σ.storage l = .ok before →
        (s.report ⟨σ.storage, failures⟩ r).store.databaseAt
          (s.report ⟨σ.storage, failures⟩ r).storage l = .ok after →
        ∀ row ∈ after.executions, row ∉ before.executions → row.Enters r before ∧
          ∀ id early, l = .file id → ρ.storage.databaseAt id = .ok early →
            ∀ e ∈ early.executions, e.id < row.id := by
  have hρ := hblank.isRegular.acts hearly
  have hσ := hρ.acts hlate
  have hkept : ∀ id early, ρ.storage.databaseAt id = .ok early →
      ∃ late, σ.storage.databaseAt id = .ok late ∧ early.Keeps late := by
    intro id early hfound
    have hagree := (hρ.acts_grows hlate).databaseAt id
    rw [hfound] at hagree
    obtain ⟨late, hfound', hgrows⟩ := hagree.exists_ok
    exact ⟨late, hfound', hgrows.keeps⟩
  refine ⟨hσ.databases, hkept, ?_, ?_⟩
  · intro τ hact l before after hbefore hafter
    have hgrows : before.Grows after := by
      rcases (hact.spec hσ.sound).2.2 l after hafter with ⟨db, hdb, hgrows⟩ | ⟨hnone, -⟩
      · rwa [hbefore.unique hdb]
      · exact absurd hbefore (hnone before)
    refine ⟨hgrows, fun between hto hfrom => ?_⟩
    exact ⟨hto.isRegular (hσ.databases l before hbefore), hto.keeps, hfrom.keeps⟩
  · intro s hs failures r l before after hbefore hafter row hrow hnew
    have henters := Store.report_enters (h := ⟨σ.storage, failures⟩) hσ.sound.storage
      (hσ.sound.stores s hs) hbefore (hσ.databaseAt hs hbefore) hafter hrow hnew
    refine ⟨henters, ?_⟩
    rintro id early rfl hfound e he
    obtain ⟨late, hfound', hkeeps⟩ := hkept id early hfound
    obtain rfl := Except.ok.inj (hbefore.symm.trans hfound')
    exact henters.lt e (hkeeps.executions.subset he)

/-- The sample after it was reported. -/
def sampleReported : Session :=
  ⟨(sampleStore.report {} sampleResults).storage, [(sampleStore.report {} sampleResults).store]⟩

/-- The sample after it was reported, with an execution of another test whose time is no stamp. -/
def sampleSpoiled : Session :=
  ⟨(Host.putExecution ⟨sampleReported.storage, {}⟩ sampleStore.path
    [.value .null, .value (.text "soon"), .value (.text "m"), .value (.text "3")]).1,
    sampleReported.stores⟩

theorem isBlank_empty : IsBlank ⟨{}, []⟩ :=
  ⟨Disk.isSound_empty, fun _ hc => absurd hc List.not_mem_nil, rfl⟩

theorem acts_sampleReported : Acts ⟨{}, []⟩ sampleReported :=
  .tail (.single (.start sampleStore.path))
    (show Act ⟨{}, [] ++ sampleStore :: []⟩ _ from .report {} sampleResults)

theorem acts_sampleSpoiled : Acts sampleReported sampleSpoiled :=
  .single (.putExecution {} sampleStore.path _)

theorem regular_of_acts_sample :
    IsBlank ⟨{}, []⟩ ∧ Acts ⟨{}, []⟩ sampleReported ∧ Acts sampleReported sampleSpoiled ∧
      ∃ db, sampleSpoiled.Has (.file 0) db ∧ db.executions.length = 2 ∧ db.operations.length = 3 ∧
        db.IsRegular := by
  have hcounts : (sampleSpoiled.storage.databaseAt 0).map
      (fun db => (db.executions.length, db.operations.length)) = .ok (2, 3) := by
    decide +kernel
  obtain ⟨db, hdb, hlength⟩ := map_eq_ok.mp hcounts
  obtain ⟨he, ho⟩ := Prod.mk.inj hlength
  have hregular := regular_of_acts isBlank_empty acts_sampleReported acts_sampleSpoiled
  exact ⟨isBlank_empty, acts_sampleReported, acts_sampleSpoiled, db, hdb, he, ho,
    hregular.1 (.file 0) db hdb⟩

end Session

end PerfLedger
