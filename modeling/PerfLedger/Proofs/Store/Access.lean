import PerfLedger.Store.Basic
import PerfLedger.Proofs.Fallible
import PerfLedger.Proofs.Files.Disk

/-!
# Reaching a database

Before an action runs, a store takes the connection it holds or opens one, and creates the tables
where they are missing. No row is touched by that: what a statement finds in a file once its tables
are there (`FileContent.prepared`) is the same before and after (`Storage.Keeps`).

So an operation of a store either does not get so far, and answers a fault with all databases as
they were (`run_of_not_reaches`), or it reaches one database, and the action decides what that one
holds afterwards (`run_of_reaches`, `Reaches.spec`). Tables that were created before a later step
failed stay, but they have no rows (`keeps_of_not_reaches`).
-/

namespace PerfLedger

/-! ## Contents -/

namespace FileContent

/-- The database that a statement finds in a content, once the tables are created. -/
def prepared (c : FileContent) : Except DatabaseFault Database :=
  c.database?.map fun db => db.getD {}

theorem prepared_of_some {c : FileContent} {db : Database} (h : c.database? = .ok (some db)) :
    c.prepared = .ok db := by
  rw [prepared, h]; rfl

theorem prepared_of_none {c : FileContent} (h : c.database? = .ok none) : c.prepared = .ok {} := by
  rw [prepared, h]; rfl

/-- Only a database is read as one; a file that does not exist is read like an empty one. -/
theorem database?_getD_eq_some {c : Option FileContent} {db : Database} :
    (c.getD empty).database? = .ok (some db) ↔ c = some (.database db) := by
  cases c with
  | none => simp [empty, database?]
  | some c =>
    cases c with
    | bytes bs =>
      rw [Option.getD_some, database?]
      split <;> simp
    | half => simp [database?]
    | database db' => simp [database?]

end FileContent

namespace Storage

/-- The database in the file with a number; there is none in a file that does not exist. -/
def databaseAt (d : Storage) (id : Nat) : Except DatabaseFault Database :=
  ((d.content? id).getD FileContent.empty).prepared

/-- The database in the file at a place; where there is no file there are no rows. -/
def rowsAt (d : Storage) (p : Place) : Except DatabaseFault Database :=
  match d.entry? p with
  | some (.file id) => d.databaseAt id
  | _ => .ok {}

/-- A disk on which nothing was lost and no row was touched. -/
structure Keeps (d d' : Storage) : Prop where
  ext : d.Extends d'
  length_le : d.files.length ≤ d'.files.length
  databaseAt (id : Nat) : d'.databaseAt id = d.databaseAt id
  rowsAt (p : Place) : d'.rowsAt p = d.rowsAt p
  sound : d.IsSound → d'.IsSound

variable {d d' d'' : Storage}

theorem rowsAt_of_file {p : Place} {id : Nat} (h : d.entry? p = some (.file id)) :
    d.rowsAt p = d.databaseAt id := by
  rw [rowsAt, h]

theorem rowsAt_of_not_file {p : Place} (h : ∀ id, d.entry? p ≠ some (.file id)) :
    d.rowsAt p = .ok {} := by
  unfold rowsAt
  split
  · next id he => exact absurd he (h id)
  · rfl

/-- Rows are where they were if files are, and new files have none. -/
theorem rowsAt_eq {p : Place} (hext : d.Extends d')
    (hdb : ∀ id, d'.databaseAt id = d.databaseAt id)
    (hnew : ∀ id, d'.entry? p = some (.file id) → d.entry? p = some (.file id) ∨
      d'.databaseAt id = .ok {}) : d'.rowsAt p = d.rowsAt p := by
  by_cases h : ∃ id, d.entry? p = some (.file id)
  · obtain ⟨id, hid⟩ := h
    rw [rowsAt_of_file hid, rowsAt_of_file (hext _ _ hid), hdb]
  · have h : ∀ id, d.entry? p ≠ some (.file id) := fun id hid => h ⟨id, hid⟩
    rw [rowsAt_of_not_file h]
    unfold rowsAt
    split
    · next id hid => exact (hnew id hid).resolve_left (h id)
    · rfl

theorem Keeps.refl (d : Storage) : Keeps d d :=
  ⟨.refl d, Nat.le_refl _, fun _ => rfl, fun _ => rfl, id⟩

theorem Keeps.trans (h : Keeps d d') (h' : Keeps d' d'') : Keeps d d'' :=
  ⟨h.ext.trans h'.ext, Nat.le_trans h.length_le h'.length_le,
    fun id => (h'.databaseAt id).trans (h.databaseAt id),
    fun p => (h'.rowsAt p).trans (h.rowsAt p), fun hd => h'.sound (h.sound hd)⟩

theorem keeps_of_gainsDirectories (h : d.GainsDirectories d') : Keeps d d' := by
  have hdb (id : Nat) : d'.databaseAt id = d.databaseAt id := by
    simp only [Storage.databaseAt, Disk.content?, h.files]
  exact ⟨h.ext, Nat.le_of_eq (congrArg List.length h.files).symm, hdb,
    fun _ => rowsAt_eq h.ext hdb fun _ hid => .inl (h.entry_file hid),
    fun hd => hd.gainsDirectories h⟩

theorem databaseAt_openFile {p : Path} {id : Nat}
    (h : d.openFile p FileContent.empty = .ok (d', id)) (j : Nat) :
    d'.databaseAt j = d.databaseAt j := by
  rcases Disk.openFile_files h with hf | ⟨hf, -⟩
  · simp only [Storage.databaseAt, Disk.content?, hf]
  · simp only [Storage.databaseAt, Disk.content?, hf, List.getElem?_append]
    split
    · rfl
    · next hj =>
      -- The new file is empty, and reads like one that does not exist.
      rw [List.getElem?_eq_none (Nat.le_of_not_lt hj)]
      cases j - d.files.length <;> rfl

theorem keeps_openFile {p : Path} {id : Nat}
    (h : d.openFile p FileContent.empty = .ok (d', id)) : Keeps d d' := by
  have hext := Disk.openFile_extends h
  have hdb := databaseAt_openFile h
  refine ⟨hext, ?_, hdb, fun q => rowsAt_eq hext hdb ?_, fun hd => (hd.openFile h).1⟩
  · rcases Disk.openFile_files h with hf | ⟨hf, -⟩
    · exact Nat.le_of_eq (congrArg List.length hf).symm
    · rw [hf, List.length_append]
      exact Nat.le_add_right _ _
  · intro i hi
    rcases Disk.openFile_spec h with ⟨rfl, -⟩ | ⟨-, -, hlen, rfl⟩
    · exact .inl hi
    · rcases Disk.entry?_put_eq_file hi with ⟨-, hid⟩ | hi
      · -- The new file has the number of no file before.
        obtain rfl := DiskEntry.file.inj hid
        rw [hdb, databaseAt, Disk.content?, List.getElem?_eq_none (Nat.le_of_eq hlen.symm)]
        exact .inr rfl
      · exact .inl hi

theorem databaseAt_setContent {i : Nat} (hi : i < d.files.length) (c : FileContent) (j : Nat) :
    databaseAt (d.setContent i c) j = if i = j then c.prepared else d.databaseAt j := by
  rw [databaseAt, Disk.content?_setContent]
  by_cases hij : i = j
  · simp [hij, hij ▸ hi]
  · simp [hij, databaseAt]

end Storage

/-! ## Connections -/

/-- Where a database is: in the file with a number, or in the memory of a connection. -/
inductive Site where
  | file (id : Nat)
  | memory
  deriving DecidableEq

namespace Connection

/-- What a connection is to. -/
def site? : Connection → Option Site
  | .file _ id => some (.file id)
  | .memory _ => some .memory
  | .broken => none

@[simp] theorem site?_file (p : Path) (id : Nat) : (file p id).site? = some (.file id) := rfl

@[simp] theorem site?_memory (content : FileContent) : (memory content).site? = some .memory := rfl

@[simp] theorem site?_broken : broken.site? = none := rfl

theorem site?_ne_none {c : Connection} : c.site? ≠ none ↔ c ≠ .broken := by
  cases c <;> simp

/-- What a connection is to exists: the file, or a database in memory. -/
structure IsSound (c : Connection) (d : Storage) : Prop where
  file_lt : ∀ id, c.site? = some (.file id) → id < d.files.length
  memory : ∀ content, c = .memory content → ∃ db, content.prepared = .ok db

variable {d d' : Storage} {c c' : Connection} {db : Database}

theorem isSound_file {p : Path} {id : Nat} (h : id < d.files.length) :
    (Connection.file p id).IsSound d := by
  refine ⟨?_, fun content hc => absurd hc (by simp)⟩
  intro j hj
  obtain rfl : id = j := by simpa using hj
  exact h

theorem isSound_memory {content : FileContent} (h : content.prepared = .ok db) :
    (Connection.memory content).IsSound d := by
  refine ⟨fun j hj => absurd hj (by simp), ?_⟩
  intro content' hc
  rw [← Connection.memory.inj hc]
  exact ⟨db, h⟩

/-- What a connection shows after a content was put over it, and that nothing else changed. -/
theorem put_spec (hc : c.IsSound d) (hsite : c.site? ≠ none) {content : FileContent}
    (h : content.prepared = .ok db) :
    (c.put d content).2.site? = c.site? ∧
      ((c.put d content).2.content (c.put d content).1).prepared = .ok db ∧
      (∀ id, c.site? ≠ some (.file id) →
        Storage.databaseAt (c.put d content).1 id = d.databaseAt id) ∧
      d.Extends (c.put d content).1 ∧ (c.put d content).1.files.length = d.files.length ∧
      (d.IsSound → (c.put d content).1.IsSound) := by
  cases c with
  | file p id =>
    have hid : id < d.files.length := hc.file_lt id rfl
    refine ⟨rfl, ?_, ?_, Disk.extends_setContent d id _,
      Disk.length_files_setContent d id _, ?_⟩
    · show Storage.databaseAt (d.setContent id content) id = _
      rw [Storage.databaseAt_setContent hid, if_pos rfl]
      exact h
    · intro j hj
      show Storage.databaseAt (d.setContent id content) j = _
      rw [Storage.databaseAt_setContent hid, if_neg (fun hc => hj (by rw [hc]; rfl))]
    · intro hd q j hq
      show j < (d.setContent id content).files.length
      rw [Disk.length_files_setContent]
      exact hd q j hq
  | memory _ => exact ⟨rfl, h, fun _ _ => rfl, .refl d, rfl, id⟩
  | broken => exact absurd rfl hsite

/-- What a connection shows after a database was written over it, and that nothing else changed. -/
theorem write_spec (hc : c.IsSound d) (hsite : c.site? ≠ none) (db : Database) :
    (c.write d db).2.site? = c.site? ∧
      ((c.write d db).2.content (c.write d db).1).prepared = .ok db ∧
      (∀ id, c.site? ≠ some (.file id) →
        Storage.databaseAt (c.write d db).1 id = d.databaseAt id) ∧
      d.Extends (c.write d db).1 ∧ (c.write d db).1.files.length = d.files.length ∧
      (d.IsSound → (c.write d db).1.IsSound) :=
  put_spec hc hsite rfl

theorem entry?_put (c : Connection) (d : Storage) (content : FileContent) (p : Place) :
    Disk.entry? (c.put d content).1 p = d.entry? p := by
  cases c <;> rfl

/-- Putting a content over one in which the same rows are found touches none of them. -/
theorem keeps_put (hc : c.IsSound d) (hsite : c.site? ≠ none) {content : FileContent}
    (hnew : content.prepared = .ok db) (h : (c.content d).prepared = .ok db) :
    d.Keeps (c.put d content).1 := by
  obtain ⟨-, -, hother, hext, hlen, hsound⟩ := put_spec hc hsite hnew
  have hdb (id : Nat) : Storage.databaseAt (c.put d content).1 id = d.databaseAt id := by
    by_cases hid : c.site? = some (.file id)
    · cases c with
      | file p j =>
        obtain rfl : j = id := by simpa using hid
        show Storage.databaseAt (d.setContent j content) j = _
        rw [Storage.databaseAt_setContent (hc.file_lt j rfl), if_pos rfl, hnew]
        exact h.symm
      | memory content => exact absurd hid (by simp)
      | broken => exact absurd hid (by simp)
    · exact hother id hid
  refine ⟨hext, Nat.le_of_eq hlen.symm, hdb, ?_, hsound⟩
  intro p
  exact Storage.rowsAt_eq hext hdb fun id hid => .inl (by rwa [entry?_put] at hid)

theorem write_isSound (hc : c.IsSound d) (db : Database) :
    (c.write d db).2.IsSound (c.write d db).1 := by
  cases c with
  | file p id =>
    refine isSound_file ?_
    show id < (d.setContent id (.database db)).files.length
    rw [Disk.length_files_setContent]
    exact hc.file_lt id rfl
  | memory content => exact isSound_memory rfl
  | broken => exact hc

/-! ## Tables -/

/-- Only what was put last counts. -/
theorem put_put (c : Connection) (d : Storage) (content content' : FileContent) :
    (c.put d content).2.put (c.put d content).1 content' = c.put d content' := by
  cases c with
  | file p id => simp only [put, Disk.setContent, List.set_set]
  | memory _ => rfl
  | broken => rfl

theorem isWritable_put (c : Connection) (d : Storage) (content : FileContent) :
    (c.put d content).2.isWritable (c.put d content).1 = c.isWritable d := by
  cases c with
  | file p id => simp only [put, isWritable, Disk.fileId?_setContent]
  | memory _ => rfl
  | broken => rfl

/-- No database is shown where the first table was created. -/
theorem content_put_half_ne (h : c.content d ≠ .database db) :
    (c.put d .half).2.content (c.put d .half).1 ≠ .database db := by
  cases c with
  | file p id =>
    simp only [put, content, Disk.content?_setContent] at h ⊢
    split
    · simp
    · exact h
  | memory _ => simp [put, content]
  | broken => simp [put, content, FileContent.empty]

/-- What creating the first table leaves: what there was, or that table alone. -/
theorem ensureFirstTable_spec (h : c.ensureFirstTable d = .ok (d', c')) :
    (d' = d ∧ c' = c) ∨
      ((c.content d).database? = .ok none ∧ d' = (c.put d .half).1 ∧ c' = (c.put d .half).2) := by
  unfold ensureFirstTable at h
  split at h
  · simp only [Except.ok.injEq, Prod.mk.injEq] at h
    exact .inl ⟨h.1.symm, h.2.symm⟩
  · simp only [Except.ok.injEq, Prod.mk.injEq] at h
    exact .inl ⟨h.1.symm, h.2.symm⟩
  · next bs hbs =>
    split at h
    · exact absurd h (by simp)
    · next hshort =>
      split at h
      · have h := Except.ok.inj h
        refine .inr ⟨?_, (congrArg Prod.fst h).symm, (congrArg Prod.snd h).symm⟩
        rw [hbs, FileContent.database?, if_pos (Nat.le_of_not_lt hshort)]
      · exact absurd h (by simp)

/-- **Creating the tables gives the database that is there**, or an empty one if it can be
written. -/
theorem ensureTables_eq (c : Connection) (d : Storage) :
    c.ensureTables d = match (c.content d).database? with
      | .error f => .error f
      | .ok (some db) => .ok (d, c, db)
      | .ok none =>
        if c.isWritable d then .ok ((c.write d {}).1, (c.write d {}).2, {})
        else .error .readOnly := by
  cases hcontent : c.content d with
  | database db =>
    simp only [ensureTables, ensureFirstTable, hcontent, bind, Except.bind]
    rfl
  | half =>
    simp only [ensureTables, ensureFirstTable, hcontent, bind, Except.bind]
    rfl
  | bytes bs =>
    by_cases hlong : 1 < bs.length
    · simp only [ensureTables, ensureFirstTable, hcontent, hlong, if_true, bind, Except.bind,
        FileContent.database?, Nat.not_le.mpr hlong, if_false]
    · by_cases hw : c.isWritable d = true
      · have hne (db : Database) : (c.put d .half).2.content (c.put d .half).1 ≠ .database db :=
          content_put_half_ne (by simp [hcontent])
        -- What the first table left is written over.
        simp only [ensureTables, ensureFirstTable, hcontent, hlong, hw, isWritable_put, if_true,
          if_false, bind, Except.bind, FileContent.database?, Nat.le_of_not_lt hlong]
        rw [write, put_put]
        rfl
      · simp only [ensureTables, ensureFirstTable, hcontent, hlong, hw, if_true, if_false, bind,
          Except.bind, FileContent.database?, Nat.le_of_not_lt hlong, Bool.false_eq_true]

theorem ensureTables_spec (hc : c.IsSound d) (hsite : c.site? ≠ none)
    (h : c.ensureTables d = .ok (d', c', db)) :
    d.Keeps d' ∧ c'.IsSound d' ∧ c'.site? = c.site? ∧ (c.content d).prepared = .ok db ∧
      (c'.content d').prepared = .ok db := by
  rw [ensureTables_eq] at h
  split at h
  · exact absurd h (by simp)
  · next db' hfound =>
    have hdb := FileContent.prepared_of_some hfound
    simp only [Except.ok.injEq, Prod.mk.injEq] at h
    obtain ⟨rfl, rfl, rfl⟩ := h
    exact ⟨.refl d, hc, rfl, hdb, hdb⟩
  · next hfound =>
    -- The tables are created over a content without both of them.
    have hdb := FileContent.prepared_of_none hfound
    split at h
    · simp only [Except.ok.injEq, Prod.mk.injEq] at h
      obtain ⟨rfl, rfl, rfl⟩ := h
      obtain ⟨hs, hp, -⟩ := write_spec hc hsite {}
      exact ⟨keeps_put hc hsite rfl hdb, write_isSound hc {}, hs, hdb, hp⟩
    · exact absurd h (by simp)

/-- The first table holds no row. -/
theorem keeps_ensureFirstTable (hc : c.IsSound d) (hsite : c.site? ≠ none)
    (h : c.ensureFirstTable d = .ok (d', c')) : d.Keeps d' := by
  rcases ensureFirstTable_spec h with ⟨rfl, -⟩ | ⟨hnone, rfl, -⟩
  · exact .refl d'
  · exact keeps_put hc hsite rfl (FileContent.prepared_of_none hnone)

/-- The tables of a file are created over the connection to it. -/
theorem ensureTables_file {p : Path} {id : Nat}
    (h : (Connection.file p id).ensureTables d = .ok (d', c, db)) :
    c = .file p id ∧ d.Extends d' := by
  rw [ensureTables_eq] at h
  split at h
  · exact absurd h (by simp)
  · simp only [Except.ok.injEq, Prod.mk.injEq] at h
    obtain ⟨rfl, rfl, rfl⟩ := h
    exact ⟨rfl, .refl d⟩
  · split at h
    · simp only [Except.ok.injEq, Prod.mk.injEq] at h
      obtain ⟨rfl, rfl, rfl⟩ := h
      exact ⟨rfl, Disk.extends_setContent d id _⟩
    · exact absurd h (by simp)

/-- A file that its path leads to has tables or gets them. -/
theorem ensureTables_of_databaseAt {p : Path} {id : Nat} (h : d.databaseAt id = .ok db)
    (hid : d.fileId? p = some id) :
    ∃ c' d', (Connection.file p id).ensureTables d = .ok (d', c', db) := by
  obtain ⟨found, hfound, rfl⟩ := map_eq_ok.mp h
  have hfound : ((Connection.file p id).content d).database? = .ok found := hfound
  have hw : (Connection.file p id).isWritable d = true := by simp [isWritable, hid]
  rw [ensureTables_eq, hfound]
  cases found with
  | some db => exact ⟨.file p id, d, rfl⟩
  | none => exact ⟨.file p id, d.setContent id (.database {}), if_pos hw⟩

end Connection

namespace Host

/-- A connection that could be opened is to the file at the path, or to memory. -/
def Opens (h : Host) (p : Path) (c : Connection) : Prop :=
  (c = .memory .empty ∧ p.toText = Connection.memoryPath) ∨
    ∃ id, c = .file p id ∧ (h.connect p).1.fileId? p = some id

theorem connect_keeps (h : Host) (p : Path) : h.storage.Keeps (h.connect p).1 := by
  have hdir := Storage.keeps_of_gainsDirectories (h.storage.ensureDirectory_gains p.parent)
  unfold connect
  split
  · next d f he => rw [he] at hdir; exact hdir
  · next d u he =>
    rw [he] at hdir
    split
    · exact hdir
    · split
      · exact hdir
      · next d' c hopen =>
        have hkeep : Storage.Keeps d d' := by
          unfold Connection.openAt at hopen
          split at hopen
          · simp only [Except.ok.injEq, Prod.mk.injEq] at hopen
            rw [← hopen.1]
            exact .refl d
          · split at hopen
            · next hfile =>
              simp only [Except.ok.injEq, Prod.mk.injEq] at hopen
              rw [← hopen.1]
              exact Storage.keeps_openFile hfile
            · exact absurd hopen (by simp)
        split
        · split
          · exact hdir.trans hkeep
          · exact hdir.trans hkeep
        · exact hdir.trans hkeep

theorem connect_opens {h : Host} {p : Path} {c : Connection} (hc : (h.connect p).2 = .ok c) :
    h.Opens p c := by
  unfold Opens
  unfold connect at hc ⊢
  split at hc
  · exact absurd hc (by simp)
  · split at hc
    · exact absurd hc (by simp)
    · next hnul =>
      rw [if_neg hnul]
      split at hc
      · exact absurd hc (by simp)
      · next d' c' hopen =>
        split at hc
        · split at hc
          · exact absurd hc (by simp)
          · exact absurd hc (by simp)
        · next hset =>
          obtain rfl := Except.ok.inj hc
          rw [if_neg hset]
          unfold Connection.openAt at hopen
          split at hopen
          · next hmem =>
            simp only [Except.ok.injEq, Prod.mk.injEq] at hopen
            exact .inl ⟨hopen.2.symm, hmem⟩
          · split at hopen
            · next hfile =>
              simp only [Except.ok.injEq, Prod.mk.injEq] at hopen
              obtain ⟨rfl, rfl⟩ := hopen
              exact .inr ⟨_, rfl, Disk.fileId?_of_openFile hfile⟩
            · exact absurd hopen (by simp)

/-- A path that leads to a file connects to it, with nothing changed. -/
theorem connect_of_fileId? {d : Storage} {p : Path} {id : Nat} {f : Failures}
    (hp : p.toText ≠ Connection.memoryPath) (hf : f.settings = false)
    (h : d.fileId? p = some id) : Host.connect ⟨d, f⟩ p = (d, .ok (.file p id)) := by
  have hnul := (Disk.locate_eq_ok.mp (Disk.fileId?_eq_some.mp h).1).1
  rw [← List.contains_iff_mem] at hnul
  simp only [connect, Disk.ensureDirectory_of_isDirectory (Disk.isDirectory_parent h),
    if_neg hnul, Connection.openAt, if_neg hp, Disk.openFile_of_fileId? h, hf, Bool.false_eq_true,
    if_false]

theorem Opens.isSound {h : Host} {p : Path} {c : Connection} (ho : h.Opens p c)
    (hd : h.storage.IsSound) : c.IsSound (h.connect p).1 ∧ c.site? ≠ none := by
  rcases ho with ⟨rfl, -⟩ | ⟨id, rfl, hid⟩
  · exact ⟨Connection.isSound_memory rfl, by simp⟩
  · refine ⟨Connection.isSound_file ?_, by simp⟩
    exact (h.connect_keeps p).sound hd _ _ (Disk.fileId?_eq_some.mp hid).2

/-- What creating the tables for a store leaves and gives where it is not made to fail. -/
theorem ensureTables_eq {h : Host} {c : Connection} (hf : h.failures.schema = none)
    (hsite : c.site? ≠ none) :
    h.ensureTables c = match c.ensureTables h.storage with
      | .error f => (h.storage, .error (.database f))
      | .ok (d, c', db) => (d, .ok (c', db)) := by
  unfold ensureTables
  rw [hf]
  cases c with
  | file p id => rfl
  | memory content => rfl
  | broken => exact absurd rfl hsite

theorem ensureTables_of_ok {h : Host} {c c' : Connection} {d : Storage} {db : Database}
    (hf : h.failures.schema = none) (hsite : c.site? ≠ none)
    (he : c.ensureTables h.storage = .ok (d, c', db)) :
    h.ensureTables c = (d, .ok (c', db)) := by
  rw [ensureTables_eq hf hsite, he]

/-- What it takes to create the tables for a store. -/
theorem ensureTables_ok {h : Host} {c c' : Connection} {d : Storage} {db : Database}
    (he : h.ensureTables c = (d, .ok (c', db))) :
    h.failures.schema = none ∧ c.site? ≠ none ∧ c.ensureTables h.storage = .ok (d, c', db) := by
  cases hf : h.failures.schema with
  | some m => simp [ensureTables, hf] at he
  | none =>
    have hsite : c.site? ≠ none := by
      rw [Connection.site?_ne_none]
      rintro rfl
      simp [ensureTables, hf] at he
    rw [ensureTables_eq hf hsite] at he
    refine ⟨rfl, hsite, ?_⟩
    split at he
    · simp at he
    · next hok =>
      simp only [Prod.mk.injEq, Except.ok.injEq] at he
      obtain ⟨rfl, rfl, rfl⟩ := he
      exact hok

/-- Tables that are created before the creation fails hold no row. -/
theorem failTables_keeps {h : Host} {c : Connection} (hc : c.IsSound h.storage) (m : String) :
    h.storage.Keeps (h.failTables c m).1 := by
  unfold failTables
  split
  · exact .refl _
  · split
    · exact .refl _
    · next hwhole =>
      split
      · exact .refl _
      · next hfirst =>
        exact Connection.keeps_ensureFirstTable hc (Connection.site?_ne_none.mpr hwhole) hfirst

/-- Creating the tables for a store touches no row, whether it fails or not. -/
theorem ensureTables_keeps {h : Host} {c : Connection} (hc : c.IsSound h.storage) :
    h.storage.Keeps (h.ensureTables c).1 := by
  cases hf : h.failures.schema with
  | some m =>
    have heq : (h.ensureTables c).1 = (h.failTables c m).1 := by simp only [ensureTables, hf]
    rw [heq]
    exact failTables_keeps hc m
  | none =>
    by_cases hwhole : c = .broken
    · simp only [ensureTables, hf, hwhole]
      exact .refl _
    · have hsite := Connection.site?_ne_none.mpr hwhole
      rw [ensureTables_eq hf hsite]
      split
      · exact .refl _
      · next hok => exact (Connection.ensureTables_spec hc hsite hok).1

end Host

/-! ## Stores -/

namespace Store

variable {s : Store} {h : Host} {c : Connection} {d : Storage} {db : Database}

/-- What the connection of a store is to exists. -/
def IsSound (s : Store) (d : Storage) : Prop :=
  ∀ c, s.connection = some c → c.IsSound d

/-- The database in the memory of the connection that a store holds. -/
def memoryDatabase (s : Store) : Except DatabaseFault Database :=
  match s.connection with
  | some (.memory content) => content.prepared
  | _ => .ok {}

/-- The database at a site. -/
def databaseAt (s : Store) (d : Storage) : Site → Except DatabaseFault Database
  | .file id => d.databaseAt id
  | .memory => s.memoryDatabase

/-- A store gets a connection to a database that has its tables. -/
def Reaches (s : Store) (h : Host) (c : Connection) (d : Storage) (db : Database) : Prop :=
  ∃ c₀, (s.acquire h).2.1 = .ok c₀ ∧
    Host.ensureTables { h with storage := (s.acquire h).1 } c₀ = (d, .ok (c, db))

theorem acquire_keeps (s : Store) (h : Host) : h.storage.Keeps (s.acquire h).1 := by
  unfold acquire
  split
  · exact .refl _
  · have := h.connect_keeps s.path
    split
    · next he => rw [he] at this; exact this
    · next he => rw [he] at this; exact this

/-- The connection that a store gets: the one it holds, or one that was opened. -/
theorem acquire_spec (hc : (s.acquire h).2.1 = .ok c) :
    (s.connection = some c ∧ (s.acquire h).1 = h.storage) ∨
      (s.connection = none ∧ (s.acquire h).1 = (h.connect s.path).1 ∧
        (h.connect s.path).2 = .ok c) := by
  unfold acquire at hc ⊢
  split at hc
  · next c₀ hs =>
    obtain rfl := Except.ok.inj hc
    exact .inl ⟨hs, rfl⟩
  · next hs =>
    split at hc
    · next he =>
      obtain rfl := Except.ok.inj hc
      exact .inr ⟨hs, by rw [he], by rw [he]⟩
    · exact absurd hc (by simp)

/-- A store that holds no connection holds none in memory. -/
theorem memoryDatabase_eq (hs : ∀ content, s.connection ≠ some (.memory content)) :
    s.memoryDatabase = .ok {} := by
  unfold memoryDatabase
  split
  · next content hc => exact absurd hc (hs content)
  · rfl

theorem databaseAt_of_connection {l : Site} (hs : s.connection = some c) (hl : c.site? = some l)
    (d : Storage) : s.databaseAt d l = (c.content d).prepared := by
  cases c with
  | file p id =>
    obtain rfl : Site.file id = l := by simpa using hl
    rfl
  | memory content =>
    obtain rfl : Site.memory = l := by simpa using hl
    simp only [databaseAt, memoryDatabase, hs, Connection.content]
  | broken => exact absurd hl (by simp)

theorem acquire_content (hs : s.IsSound h.storage) (hd : h.storage.IsSound)
    (hc : (s.acquire h).2.1 = .ok c) :
    c.IsSound (s.acquire h).1 ∧ ∀ l, c.site? = some l →
      s.databaseAt h.storage l = (c.content (s.acquire h).1).prepared := by
  rcases acquire_spec hc with ⟨hs', hd'⟩ | ⟨hs', hd', hopen⟩
  · rw [hd']
    exact ⟨hs c hs', fun l hl => databaseAt_of_connection hs' hl h.storage⟩
  · have ho := Host.connect_opens hopen
    rw [hd']
    refine ⟨(ho.isSound hd).1, ?_⟩
    intro l hl
    rcases ho with ⟨rfl, -⟩ | ⟨id, rfl, -⟩
    · obtain rfl : Site.memory = l := by simpa using hl
      exact memoryDatabase_eq fun content hc => by simp [hs'] at hc
    · obtain rfl : Site.file id = l := by simpa using hl
      exact ((h.connect_keeps s.path).databaseAt id).symm

/-- A database that was written has its tables. -/
theorem ensureTables_of_write {d : Storage} (hc : c.IsSound d) (hsite : c.site? ≠ none)
    {f : Failures} (hf : f.schema = none) :
    Host.ensureTables ⟨(c.write d db).1, f⟩ (c.write d db).2
      = ((c.write d db).1, .ok ((c.write d db).2, db)) := by
  have hcontent : ((c.write d db).2.content (c.write d db).1).database? = .ok (some db) := by
    cases c with
    | file p id =>
      show ((d.setContent id (.database db)).content? id |>.getD .empty).database? = _
      rw [Disk.content?_setContent, if_pos ⟨rfl, hc.file_lt id rfl⟩]
      rfl
    | memory content => rfl
    | broken => exact absurd rfl hsite
  refine Host.ensureTables_of_ok hf ?_ ?_
  · rwa [(Connection.write_spec hc hsite db).1]
  · rw [Connection.ensureTables_eq, hcontent]

theorem reaches_or (s : Store) (h : Host) :
    (∃ c d db, s.Reaches h c d db) ∨ ∀ c d db, ¬s.Reaches h c d db := by
  by_cases hr : ∃ c d db, s.Reaches h c d db
  · exact .inl hr
  · exact .inr fun c d db hc => hr ⟨c, d, db, hc⟩

theorem Reaches.unique {c' : Connection} {d' : Storage} {db' : Database} (hr : s.Reaches h c d db)
    (hr' : s.Reaches h c' d' db') : c' = c ∧ d' = d ∧ db' = db := by
  obtain ⟨c₀, hc₀, he⟩ := hr
  obtain ⟨c₁, hc₁, he'⟩ := hr'
  rw [hc₀] at hc₁
  obtain rfl := Except.ok.inj hc₁
  rw [he] at he'
  simp only [Prod.mk.injEq, Except.ok.injEq] at he'
  exact ⟨he'.2.1.symm, he'.1.symm, he'.2.2.symm⟩

/-- **What a store reaches**: a database at some site, with all rows where they were. -/
theorem Reaches.spec (hr : s.Reaches h c d db) (hd : h.storage.IsSound)
    (hs : s.IsSound h.storage) :
    h.storage.Keeps d ∧ c.IsSound d ∧ (c.content d).prepared = .ok db ∧
      ∃ l, c.site? = some l ∧ s.databaseAt h.storage l = .ok db := by
  obtain ⟨c₀, hc₀, he⟩ := hr
  obtain ⟨-, hsite, he⟩ := Host.ensureTables_ok he
  have hkeep := s.acquire_keeps h
  obtain ⟨hsound, hcontent⟩ := acquire_content hs hd hc₀
  obtain ⟨hkeep', hsound', hsite', hdb, hdb'⟩ := Connection.ensureTables_spec hsound hsite he
  obtain ⟨l, hl⟩ := Option.ne_none_iff_exists'.mp hsite
  refine ⟨hkeep.trans hkeep', hsound', hdb', l, hsite'.trans hl, ?_⟩
  rw [hcontent l hl]
  exact hdb

/-- A store that reaches a file has no rows in memory. -/
theorem Reaches.memoryDatabase_eq (hr : s.Reaches h c d db) (hd : h.storage.IsSound)
    (hs : s.IsSound h.storage) {id : Nat} (hl : c.site? = some (.file id)) :
    s.memoryDatabase = .ok {} := by
  obtain ⟨c₀, hc₀, he⟩ := hr
  obtain ⟨-, hsite, he⟩ := Host.ensureTables_ok he
  have hsite' := (Connection.ensureTables_spec (acquire_content hs hd hc₀).1 hsite he).2.2.1
  refine Store.memoryDatabase_eq ?_
  intro content hm
  rcases acquire_spec hc₀ with ⟨hc, -⟩ | ⟨hc, -⟩
  · rw [hm] at hc
    obtain rfl := Option.some.inj hc
    rw [hl] at hsite'
    exact absurd hsite' (by simp)
  · rw [hm] at hc
    exact absurd hc (by simp)

/-- Writing over the connection that was reached changes the database at its site, and no other. -/
theorem Reaches.write (hr : s.Reaches h c d db) (hd : h.storage.IsSound) (hs : s.IsSound h.storage)
    {l : Site} (hl : c.site? = some l) (db' : Database) {s' : Store}
    (hs' : s'.connection = some (c.write d db').2) :
    s'.databaseAt (c.write d db').1 l = .ok db' ∧
      ∀ l', l' ≠ l → s'.databaseAt (c.write d db').1 l' = s.databaseAt h.storage l' := by
  obtain ⟨hkeep, hsound, -, -⟩ := hr.spec hd hs
  obtain ⟨hsite, hprep, hother, -⟩ := Connection.write_spec hsound (by simp [hl]) db'
  have hl' : (c.write d db').2.site? = some l := hsite.trans hl
  refine ⟨by rw [databaseAt_of_connection hs' hl', hprep], ?_⟩
  intro l' hne
  cases l' with
  | file id =>
    refine (hother id ?_).trans (hkeep.databaseAt id)
    rw [hl]
    exact fun hc => hne (Option.some.inj hc).symm
  | memory =>
    cases l with
    | file id =>
      refine (Store.memoryDatabase_eq ?_).trans (hr.memoryDatabase_eq hd hs hl).symm
      intro content hc
      rw [hs'] at hc
      rw [Option.some.inj hc] at hl'
      exact absurd hl' (by simp)
    | memory => exact absurd rfl hne

/-- The action of an operation runs on the database that is reached. -/
theorem run_of_reaches (hr : s.Reaches h c d db) {α : Type}
    (action : Access → Database → Reply α) :
    (s.run h action).store
        = { s with connection := some (c.write d (action (h.access d c) db).database).2 } ∧
      (s.run h action).storage = (c.write d (action (h.access d c) db).database).1 ∧
      (s.run h action).result = (action (h.access d c) db).result := by
  obtain ⟨c₀, hc₀, he⟩ := hr
  unfold run
  rcases hacq : s.acquire h with ⟨d₀, res, events⟩
  rw [hacq] at hc₀ he
  simp only at hc₀ he
  subst hc₀
  simp only [he, and_self]

/-- The history that a store answers is the one in the database that is reached. -/
theorem Reaches.history_result (hr : s.Reaches h c d db) (name : Value) :
    (s.history h name).result
      = (db.history (h.access d c) name).mapError (.history s.path) := by
  obtain ⟨-, -, hresult⟩ :=
    run_of_reaches hr fun a db => { database := db, result := db.history a name }
  exact congrArg (Except.mapError (StoreError.history s.path)) hresult

/-- An operation that reaches no database answers a fault. -/
theorem run_of_not_reaches (hr : ∀ c d db, ¬s.Reaches h c d db) {α : Type}
    (action : Access → Database → Reply α) :
    (∃ f, (s.run h action).result = .error f) ∧
      ((s.run h action).store = s ∧ s.connection = none ∨
        (s.run h action).store = { s with connection := none }) := by
  unfold run
  rcases hacq : s.acquire h with ⟨d₀, res, events⟩
  cases res with
  | error f =>
    -- Only a store without a connection opens one.
    refine ⟨⟨f, rfl⟩, .inl ⟨rfl, ?_⟩⟩
    unfold acquire at hacq
    split at hacq
    · simp at hacq
    · next hs => exact hs
  | ok c₀ =>
    rcases he : Host.ensureTables { h with storage := d₀ } c₀ with ⟨d', f | ⟨c', db'⟩⟩
    · simp [he]
    · exact absurd ⟨c₀, by rw [hacq], by rw [hacq]; exact he⟩ (hr c' d' db')

/-- An operation that reaches no database touches no row. Directories and tables that it has made
stay. -/
theorem keeps_of_not_reaches (hd : h.storage.IsSound) (hs : s.IsSound h.storage)
    (hr : ∀ c d db, ¬s.Reaches h c d db) {α : Type} (action : Access → Database → Reply α) :
    h.storage.Keeps (s.run h action).storage := by
  have hkeep := s.acquire_keeps h
  unfold run
  rcases hacq : s.acquire h with ⟨d₀, res, events⟩
  rw [hacq] at hkeep
  cases res with
  | error f => exact hkeep
  | ok c₀ =>
    have hc₀ : (s.acquire h).2.1 = .ok c₀ := by rw [hacq]
    have hsound : c₀.IsSound d₀ := by simpa [hacq] using (acquire_content hs hd hc₀).1
    have htables : d₀.Keeps (Host.ensureTables { h with storage := d₀ } c₀).1 :=
      Host.ensureTables_keeps (h := { h with storage := d₀ }) hsound
    rcases he : Host.ensureTables { h with storage := d₀ } c₀ with ⟨d', f | ⟨c', db'⟩⟩
    · simp only [he]
      rw [he] at htables
      exact hkeep.trans htables
    · exact absurd ⟨c₀, hc₀, by rw [hacq]; exact he⟩ (hr c' d' db')

/-- An operation that succeeds has reached a database. -/
theorem exists_reaches_of_ok {α : Type} {action : Access → Database → Reply α} {a : α}
    (hok : (s.run h action).result = .ok a) : ∃ c d db, s.Reaches h c d db := by
  rcases s.reaches_or h with hr | hr
  · exact hr
  · obtain ⟨⟨f, hf⟩, -⟩ := run_of_not_reaches hr action
    rw [hok] at hf
    exact absurd hf (by simp)

theorem new_isSound (p : Path) (d : Storage) : (new p).IsSound d :=
  fun _ hc => absurd hc (by simp [new])

/-- An operation leaves files and connections sound. -/
theorem run_isSound (hd : h.storage.IsSound) (hs : s.IsSound h.storage) {α : Type}
    (action : Access → Database → Reply α) :
    (s.run h action).storage.IsSound ∧ (s.run h action).store.IsSound (s.run h action).storage := by
  rcases s.reaches_or h with ⟨c, d, db, hr⟩ | hr
  · obtain ⟨hkeep, hsound, -, l, hl, -⟩ := hr.spec hd hs
    obtain ⟨hstore, hstorage, -⟩ := run_of_reaches hr action
    rw [hstore, hstorage]
    refine ⟨(Connection.write_spec hsound (by simp [hl]) _).2.2.2.2.2 (hkeep.sound hd), ?_⟩
    intro c' hc'
    rw [← Option.some.inj hc']
    exact Connection.write_isSound hsound _
  · obtain ⟨-, hstore⟩ := run_of_not_reaches hr action
    refine ⟨(keeps_of_not_reaches hd hs hr action).sound hd, ?_⟩
    intro c hc
    rcases hstore with ⟨heq, hnone⟩ | heq
    · rw [heq, hnone] at hc
      exact absurd hc (by simp)
    · rw [heq] at hc
      exact absurd hc (by simp)

end Store

end PerfLedger
