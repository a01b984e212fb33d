import PerfLedger.Proofs.Files.Directories
import PerfLedger.Proofs.Store.Lifecycle
import PerfLedger.Proofs.Store.Session

/-!
# Starting over

What a store finds before it runs an action depends on its path and on the disk, and not on the
connection that it holds or has given up, unless something is wrong on the way
(`prepare_of_clear`): a new store finds the same (`look`).

Attempts that go wrong leave something on the disk: directories, an empty file, one table or both.
But the next one finds what it would have found without them (`alike_connect`, `alike_resume`,
`alike_half`, `alike_look`).
Only where the directories above the file cannot be made, each attempt may fail at another one of
them; then all of them fail, and nothing is there.
-/

namespace PerfLedger

/-- The directories above a path are there or can be made. -/
def Disk.Admits {α : Type} (d : Disk α) (p : Path) : Prop :=
  (d.ensureDirectory p.parent).2 = .ok ()

theorem Disk.admits_of_isDirectory {α : Type} {d : Disk α} {p : Path}
    (h : d.isDirectory p.parent = true) : d.Admits p := by
  rw [Admits, ensureDirectory_of_isDirectory h]

theorem Disk.Admits.of_gains {α : Type} {d D : Disk α} {p : Path} (h : D.Admits p)
    (hgains : d.GainsDirectories D) : d.Admits p :=
  ensureDirectory_of_gains (hgains.trans (D.ensureDirectory_gains p.parent))
    (isDirectory_of_ensureDirectory h)

namespace Store

variable {s : Store} {h : Host} {p : Path} {d d' d'' : Storage} {f : Failures} {α : Type}

/-! ## Getting ready -/

/-- What a store gets before it runs an action: a connection and its database, or a fault. -/
def prepare (s : Store) (h : Host) : Storage × Except StoreFault (Connection × Database) :=
  match s.acquire h with
  | (d, .error f, _) => (d, .error f)
  | (d, .ok c, _) => Host.ensureTables { h with storage := d } c

/-- What an action leaves on the disk and answers, over what was found. -/
def finish (f : Failures) (found : Storage × Except StoreFault (Connection × Database))
    (action : Access → Database → Reply α) : Storage × Except StoreFault α :=
  match found with
  | (d, .error e) => (d, .error e)
  | (d, .ok (c, db)) =>
    let reply := action ⟨c.isWritable d, f.statement⟩ db
    ((c.write d reply.database).1, reply.result)

/-- What a new store finds if nothing is wrong. -/
def look (p : Path) (d : Storage) : Storage × Except StoreFault (Connection × Database) :=
  (new p).prepare ⟨d, {}⟩

theorem run_eq_finish (s : Store) (h : Host) (action : Access → Database → Reply α) :
    (s.run h action).storage = (finish h.failures (s.prepare h) action).1 ∧
      (s.run h action).result = (finish h.failures (s.prepare h) action).2 := by
  unfold run prepare finish
  rcases s.acquire h with ⟨d, c | c, events⟩
  · exact ⟨rfl, rfl⟩
  · dsimp only
    rcases Host.ensureTables { h with storage := d } c with ⟨d', e | found⟩
    · exact ⟨rfl, rfl⟩
    · exact ⟨rfl, rfl⟩

/-- Something is wrong on the way of a store to its database: the tables cannot be created, the
connection that it holds is broken, or it has to open one, which fails on the first statement. -/
def IsDisturbed (s : Store) (f : Failures) : Prop :=
  f.schema ≠ none ∨ s.connection = some .broken ∨ (s.connection = none ∧ f.settings = true)

theorem ensureTables_congr (hf : f.schema = none) (d : Storage) (c : Connection) :
    Host.ensureTables ⟨d, f⟩ c = Host.ensureTables ⟨d, {}⟩ c := by
  cases c <;> simp only [Host.ensureTables, hf]

/-- **If nothing is wrong, a store finds what a new one finds.** -/
theorem prepare_of_clear (hs : s.IsAt p.place d) (hpath : s.path = p) (hclear : ¬s.IsDisturbed f) :
    s.prepare ⟨d, f⟩ = look p d := by
  simp only [IsDisturbed, not_or, not_and, ne_eq, not_not] at hclear
  obtain ⟨hschema, hbroken, hsettings⟩ := hclear
  obtain ⟨q, held⟩ := s
  obtain rfl : q = p := hpath
  cases held with
  | none =>
    have hconnect : Host.connect ⟨d, f⟩ q = Host.connect ⟨d, {}⟩ q := by
      simp only [Host.connect, hsettings rfl, Bool.false_eq_true, if_false]
    simp only [look, prepare, acquire, new, hconnect, ensureTables_congr hschema]
  | some c =>
    rcases hs.connection c rfl with rfl | ⟨id, hc, hid⟩
    · exact absurd rfl hbroken
    · obtain rfl : c = .file q id := hc
      have hconnect := Host.connect_of_fileId? (f := {}) hs.path.2 rfl hid
      simp only [look, prepare, acquire, new, hconnect, ensureTables_congr hschema]

/-- What a store finds it reaches. -/
theorem reaches_of_prepare {h : Host} {c : Connection} {db : Database}
    (hfound : s.prepare h = (d', .ok (c, db))) : s.Reaches h c d' db := by
  unfold prepare at hfound
  rcases hacq : s.acquire h with ⟨d₁, e | c₀, events⟩
  · rw [hacq] at hfound
    exact absurd (congrArg Prod.snd hfound) (by simp)
  · rw [hacq] at hfound
    exact ⟨c₀, by rw [hacq], by rw [hacq]; exact hfound⟩

theorem connect_of_settings (hf : f.settings = true) (p : Path) (c : Connection) :
    (Host.connect ⟨d, f⟩ p).2 ≠ .ok c := by
  unfold Host.connect
  simp only [hf, if_true]
  split
  · simp
  · split
    · simp
    · split
      · simp
      · split <;> simp

theorem not_reaches_of_disturbed (hs : s.IsDisturbed f) (c : Connection) (db : Database) :
    ¬s.Reaches ⟨d, f⟩ c d' db := by
  rintro ⟨c₀, hc₀, htables⟩
  obtain ⟨hschema, hsite, -⟩ := Host.ensureTables_ok htables
  rcases hs with hs | hs | ⟨hnone, hs⟩
  · exact hs hschema
  · rcases acquire_spec hc₀ with ⟨hc, -⟩ | ⟨hc, -⟩
    · obtain rfl := Option.some.inj (hs.symm.trans hc)
      exact hsite rfl
    · exact absurd (hs.symm.trans hc) (by simp)
  · rcases acquire_spec hc₀ with ⟨hc, -⟩ | ⟨-, -, hopen⟩
    · exact absurd (hnone.symm.trans hc) (by simp)
    · exact connect_of_settings hs s.path c₀ hopen

/-! ## Looking again -/

theorem connect_congr (h : d'.ensureDirectory p.parent = d.ensureDirectory p.parent)
    (f : Failures) : Host.connect ⟨d', f⟩ p = Host.connect ⟨d, f⟩ p := by
  unfold Host.connect
  rw [h]

theorem look_eq (p : Path) (d : Storage) :
    look p d =
      match Host.connect ⟨d, {}⟩ p with
      | (d, .error f) => (d, .error f)
      | (d, .ok c) => Host.ensureTables ⟨d, {}⟩ c := by
  simp only [look, prepare, acquire, new]
  rcases Host.connect ⟨d, {}⟩ p with ⟨d, c | c⟩
  · rfl
  · rfl

theorem look_congr (h : Host.connect ⟨d', {}⟩ p = Host.connect ⟨d, {}⟩ p) :
    look p d' = look p d := by
  rw [look_eq, look_eq, h]

/-- A file that could be opened stays, whatever happens to the connection. -/
theorem connect_of_openAt {c : Connection} (hmade : d.ensureDirectory p.parent = (d', .ok ()))
    (hnul : ¬p.toText.toList.contains '\x00' = true)
    (hopen : Connection.openAt d' p = .ok (d'', c)) : (Host.connect ⟨d, f⟩ p).1 = d'' := by
  simp only [Host.connect, hmade, if_neg hnul, hopen]
  split
  · split <;> rfl
  · rfl

/-- What an attempt to connect leaves: the directories, and the file if it gets so far. -/
theorem connect_storage (hp : p.toText ≠ Connection.memoryPath) (hd : d.Admits p) (f : Failures) :
    (Host.connect ⟨d, f⟩ p).1 = (d.ensureDirectory p.parent).1 ∨
      ∃ id, (Host.connect ⟨d, f⟩ p).1.fileId? p = some id ∧
        Host.connect ⟨d, {}⟩ p = ((Host.connect ⟨d, f⟩ p).1, .ok (.file p id)) := by
  obtain ⟨d₁, hd₁⟩ : ∃ d₁, d.ensureDirectory p.parent = (d₁, .ok ()) := ⟨_, Prod.ext rfl hd⟩
  by_cases hnul : p.toText.toList.contains '\x00' = true
  · exact .inl (by simp only [Host.connect, hd₁, if_pos hnul])
  · cases hopen : d₁.openFile p FileContent.empty with
    | error e =>
      refine .inl ?_
      simp only [Host.connect, hd₁, if_neg hnul, Connection.openAt, if_neg hp, hopen]
    | ok opened =>
      obtain ⟨d₂, id⟩ := opened
      have hopened : Connection.openAt d₁ p = .ok (d₂, .file p id) := by
        simp only [Connection.openAt, if_neg hp, hopen]
      refine .inr ⟨id, ?_, ?_⟩
      · rw [connect_of_openAt hd₁ hnul hopened]
        exact Disk.fileId?_of_openFile hopen
      · rw [connect_of_openAt hd₁ hnul hopened]
        simp only [Host.connect, hd₁, if_neg hnul, hopened, Bool.false_eq_true, if_false]

/-- If the directories above a path cannot be made, it cannot be connected to. -/
theorem connect_of_not_admits (hd : ¬d.Admits p) (f : Failures) :
    ∃ e, Host.connect ⟨d, f⟩ p = ((d.ensureDirectory p.parent).1, .error e) := by
  unfold Host.connect
  split
  · next e heq => exact ⟨.file e, by rw [heq]⟩
  · next heq => exact absurd (by rw [Disk.Admits, heq]) hd

theorem admits_of_connect {c : Connection} (h : (Host.connect ⟨d, f⟩ p).2 = .ok c) :
    d.Admits p := by
  by_contra hd
  obtain ⟨e, he⟩ := connect_of_not_admits hd f
  rw [he] at h
  exact absurd h (by simp)

/-- The file over which tables are there holds its database. -/
theorem content?_of_ensureTables {id : Nat} {c : Connection} {db : Database}
    (hid : id < d.files.length) (h : Connection.ensureTables d (.file p id) = .ok (d', c, db)) :
    d'.content? id = some (.database db) := by
  rw [Connection.ensureTables_eq] at h
  split at h
  · exact absurd h (by simp)
  · next hfound =>
    simp only [Except.ok.injEq, Prod.mk.injEq] at h
    obtain ⟨rfl, -, rfl⟩ := h
    exact FileContent.database?_getD_eq_some.mp hfound
  · split at h
    · simp only [Except.ok.injEq, Prod.mk.injEq] at h
      obtain ⟨rfl, -, rfl⟩ := h
      show Disk.content? (d.setContent id _) id = _
      rw [Disk.content?_setContent, if_pos ⟨rfl, hid⟩]
    · exact absurd h (by simp)

/-- What a store finds that finds a database: the file at its path, with its tables. -/
theorem look_eq_ok (hp : p.toText ≠ Connection.memoryPath) (hd : d.IsSound) {c : Connection}
    {db : Database} (h : look p d = (d', .ok (c, db))) :
    d.Admits p ∧ ∃ id, c = .file p id ∧ d'.fileId? p = some id ∧
      d'.content? id = some (.database db) := by
  rw [look_eq] at h
  rcases hconnect : Host.connect ⟨d, {}⟩ p with ⟨d₁, c₁ | c₁⟩
  · rw [hconnect] at h
    exact absurd (Prod.mk.inj h).2 (by simp)
  · rw [hconnect] at h
    obtain ⟨-, -, htables⟩ := Host.ensureTables_ok h
    have hopens := Host.connect_opens (h := ⟨d, {}⟩) (p := p) (c := c₁) (by rw [hconnect])
    have hsound := (Host.connect_keeps ⟨d, {}⟩ p).sound hd
    unfold Host.Opens at hopens
    rw [hconnect] at hopens hsound
    rcases hopens with ⟨-, hmemory⟩ | ⟨id, rfl, hid⟩
    · exact absurd hmemory hp
    · obtain ⟨hc, hext⟩ := Connection.ensureTables_file htables
      have hlt : id < d₁.files.length := hsound _ _ (Disk.fileId?_eq_some.mp hid).2
      exact ⟨admits_of_connect (f := {}) (by rw [hconnect]), id, hc, hext.fileId? hid,
        content?_of_ensureTables hlt htables⟩

/-- What a store finds at a path that leads to a file. -/
theorem look_of_fileId? (hp : p.toText ≠ Connection.memoryPath) {id : Nat}
    (hid : d.fileId? p = some id) : look p d = Host.ensureTables ⟨d, {}⟩ (.file p id) := by
  rw [look_eq, Host.connect_of_fileId? hp rfl hid]

theorem look_of_content (hp : p.toText ≠ Connection.memoryPath) {id : Nat} {db : Database}
    (hid : d.fileId? p = some id) (hc : d.content? id = some (.database db)) :
    look p d = (d, .ok (.file p id, db)) := by
  have hcontent : ((Connection.file p id).content d).database? = .ok (some db) :=
    FileContent.database?_getD_eq_some.mpr hc
  rw [look_of_fileId? hp hid]
  refine Host.ensureTables_of_ok rfl (by simp) ?_
  rw [Connection.ensureTables_eq, hcontent]

/-- A fault is found before anything is done to the disk but connecting. -/
theorem look_eq_error {e : StoreFault} (h : look p d = (d', .error e)) :
    d' = (Host.connect ⟨d, {}⟩ p).1 := by
  rw [look_eq] at h
  rcases hconnect : Host.connect ⟨d, {}⟩ p with ⟨d₁, c | c⟩
  · rw [hconnect] at h
    exact (Prod.mk.inj h).1.symm
  · rw [hconnect] at h
    by_cases hsite : c.site? = none
    · cases c with
      | broken => exact (Prod.mk.inj h).1.symm
      | _ => exact absurd hsite (by simp)
    · have h : Host.ensureTables ⟨d₁, {}⟩ c = (d', .error e) := h
      rw [Host.ensureTables_eq rfl hsite] at h
      split at h
      · exact (Prod.mk.inj h).1.symm
      · exact absurd (Prod.mk.inj h).2 (by simp)

/-! ## Disks that look alike -/

/-- On two disks a store finds the same, or cannot even make the directories above its path. -/
def Alike (p : Path) (d d' : Storage) : Prop :=
  (d.Admits p ∧ d'.Admits p ∧ look p d = look p d') ∨ (¬d.Admits p ∧ ¬d'.Admits p)

theorem Alike.refl (p : Path) (d : Storage) : Alike p d d := by
  by_cases h : d.Admits p
  · exact .inl ⟨h, h, rfl⟩
  · exact .inr ⟨h, h⟩

theorem Alike.trans (h : Alike p d d') (h' : Alike p d' d'') : Alike p d d'' := by
  rcases h with ⟨hd, hd', hlook⟩ | ⟨hd, hd'⟩
  · rcases h' with ⟨-, hd'', hlook'⟩ | ⟨hno, -⟩
    · exact .inl ⟨hd, hd'', hlook.trans hlook'⟩
    · exact absurd hd' hno
  · rcases h' with ⟨hyes, -⟩ | ⟨-, hd''⟩
    · exact absurd hyes hd'
    · exact .inr ⟨hd, hd''⟩

/-- **Directories that were made on the way change nothing.** -/
theorem alike_resume {q : Path} (habove : q.IsAbove p.parent) :
    Alike p d (d.ensureDirectory q).1 := by
  by_cases hd : d.Admits p
  · have hsame := Disk.ensureDirectory_resume habove hd
    refine .inl ⟨hd, ?_, (look_congr (connect_congr hsame {})).symm⟩
    rw [Disk.Admits, hsame]
    exact hd
  · exact .inr ⟨hd, fun hyes => hd (hyes.of_gains (d.ensureDirectory_gains q))⟩

/-- **An attempt to connect changes nothing for the next one.** -/
theorem alike_connect (hp : p.toText ≠ Connection.memoryPath) (d : Storage) (f : Failures) :
    Alike p d (Host.connect ⟨d, f⟩ p).1 := by
  by_cases hd : d.Admits p
  · rcases connect_storage hp hd f with hmade | ⟨id, hid, hopened⟩
    · rw [hmade]
      exact alike_resume (.self _)
    · refine .inl ⟨hd, Disk.admits_of_isDirectory (Disk.isDirectory_parent hid), look_congr ?_⟩
      rw [hopened, Host.connect_of_fileId? hp rfl hid]
  · obtain ⟨e, he⟩ := connect_of_not_admits hd f
    rw [he]
    exact alike_resume (.self _)

/-- **A table that was created on the way changes nothing.** -/
theorem alike_half (hp : p.toText ≠ Connection.memoryPath) {id : Nat}
    (hid : d.fileId? p = some id)
    (hnone : ((Connection.file p id).content d).database? = .ok none) :
    Alike p d (d.setContent id .half) := by
  have hid' : (d.setContent id .half).fileId? p = some id := by
    rw [Disk.fileId?_setContent, hid]
  have hnone' : ((Connection.file p id).content (d.setContent id .half)).database? = .ok none := by
    simp only [Connection.content, Disk.content?_setContent]
    split
    · rfl
    · exact hnone
  refine .inl ⟨Disk.admits_of_isDirectory (Disk.isDirectory_parent hid),
    Disk.admits_of_isDirectory (Disk.isDirectory_parent hid'), ?_⟩
  -- Both tables are created over either content.
  have hput : (Connection.file p id).write (d.setContent id .half) {}
      = (Connection.file p id).write d {} :=
    Connection.put_put (.file p id) d .half (.database {})
  have hwritable : (Connection.file p id).isWritable (d.setContent id .half)
      = (Connection.file p id).isWritable d :=
    Connection.isWritable_put (.file p id) d .half
  have htables : (Connection.file p id).ensureTables (d.setContent id .half)
      = (Connection.file p id).ensureTables d := by
    simp only [Connection.ensureTables_eq, hnone, hnone', hput, hwritable]
  have hw : (Connection.file p id).isWritable d = true := by simp [Connection.isWritable, hid]
  have hall : (Connection.file p id).ensureTables d
      = .ok (d.setContent id (.database {}), .file p id, {}) := by
    rw [Connection.ensureTables_eq, hnone]
    exact if_pos hw
  rw [look_of_fileId? hp hid, look_of_fileId? hp hid',
    Host.ensureTables_of_ok rfl (by simp) hall,
    Host.ensureTables_of_ok rfl (by simp) (htables.trans hall)]

/-- What creating the tables of a file leaves when it fails looks like what was there. -/
theorem alike_failTables (hp : p.toText ≠ Connection.memoryPath) {id : Nat}
    (hid : d.fileId? p = some id) (f : Failures) (m : String) :
    Alike p d (Host.failTables ⟨d, f⟩ (.file p id) m).1 := by
  unfold Host.failTables
  cases f.halfway with
  | false => exact .refl p d
  | true =>
    simp only [Bool.not_true, Bool.false_eq_true, if_false]
    split
    · exact .refl p d
    · next d' c hfirst =>
      rcases Connection.ensureFirstTable_spec hfirst with ⟨rfl, -⟩ | ⟨hnone, rfl, -⟩
      · exact .refl p d'
      · exact alike_half hp hid hnone

/-- **What a store finds it finds again.** -/
theorem alike_look (hp : p.toText ≠ Connection.memoryPath) (hd : d.IsSound) :
    Alike p d (look p d).1 := by
  rcases hlook : look p d with ⟨d', e | ⟨c, db⟩⟩
  · rw [look_eq_error hlook]
    exact alike_connect hp d {}
  · obtain ⟨hadmits, id, rfl, hid, hcontent⟩ := look_eq_ok hp hd hlook
    refine .inl ⟨hadmits, Disk.admits_of_isDirectory (Disk.isDirectory_parent hid), ?_⟩
    rw [hlook, look_of_content hp hid hcontent]

/-! ## Operations -/

/-- Writing what is there already changes nothing. -/
theorem setContent_self {id : Nat} {content : FileContent} (h : d.content? id = some content) :
    d.setContent id content = d := by
  obtain ⟨hlt, hget⟩ := List.getElem?_eq_some_iff.mp h
  have hset : d.files.set id content = d.files := by
    rw [← hget]
    exact List.set_getElem_self hlt
  show { d with files := d.files.set id content } = d
  rw [hset]

/-- An action that only reads leaves the disk as it was found. -/
theorem finish_of_reading (hp : p.toText ≠ Connection.memoryPath) (hd : d.IsSound) (f : Failures)
    {action : Access → Database → Reply α} (hread : ∀ a db, (action a db).database = db) :
    (finish f (look p d) action).1 = (look p d).1 := by
  rcases hlook : look p d with ⟨d', e | ⟨c, db⟩⟩
  · rfl
  · obtain ⟨-, id, rfl, -, hcontent⟩ := look_eq_ok hp hd hlook
    show d'.setContent id (.database (action _ db).database) = d'
    rw [hread]
    exact setContent_self hcontent

/-- What an action makes of a disk depends on what a new store finds there. -/
theorem run_of_clear (hs : s.IsAt p.place d) (hpath : s.path = p) (hclear : ¬s.IsDisturbed f)
    (action : Access → Database → Reply α) :
    (s.run ⟨d, f⟩ action).storage = (finish f (look p d) action).1 ∧
      (s.run ⟨d, f⟩ action).result = (finish f (look p d) action).2 := by
  rw [← prepare_of_clear hs hpath hclear]
  exact s.run_eq_finish ⟨d, f⟩ action

/-- **Getting ready changes nothing for the next one**, whatever fails. -/
theorem alike_prepare (hs : s.IsAt p.place d) (hpath : s.path = p) (hd : d.IsSound)
    (f : Failures) : Alike p d (s.prepare ⟨d, f⟩).1 := by
  subst hpath
  have hp := hs.path.2
  have hconnected : Alike s.path d (s.acquire ⟨d, f⟩).1 := by
    have := alike_connect hp d f
    unfold acquire
    split
    · exact .refl _ d
    · split
      · next heq => rwa [heq] at this
      · next heq => rwa [heq] at this
  have hsound := (s.acquire_keeps ⟨d, f⟩).sound hd
  have hfile (c : Connection) := hs.acquire (h := ⟨d, f⟩) (c := c)
  unfold prepare
  rcases hacq : s.acquire ⟨d, f⟩ with ⟨d₁, e | c, events⟩
  · rw [hacq] at hconnected
    exact hconnected
  · rw [hacq] at hconnected hsound hfile
    refine hconnected.trans ?_
    cases hschema : f.schema with
    | some m =>
      rcases hfile c rfl with rfl | ⟨id, rfl, hid⟩
      · simp only [Host.ensureTables, hschema, Host.failTables]
        split <;> exact .refl _ d₁
      · simp only [Host.ensureTables, hschema]
        exact alike_failTables hp hid f m
    | none =>
      rcases hfile c rfl with rfl | ⟨id, rfl, hid⟩
      · simp only [Host.ensureTables, hschema]
        exact .refl _ d₁
      · show Alike s.path d₁ (Host.ensureTables ⟨d₁, f⟩ (.file s.path id)).1
        rw [ensureTables_congr hschema, ← look_of_fileId? hp hid]
        exact alike_look hp hsound

/-- An operation that finds something wrong changes nothing for the next one. -/
theorem alike_of_disturbed (hs : s.IsAt p.place d) (hpath : s.path = p) (hd : d.IsSound)
    (hf : s.IsDisturbed f) (action : Access → Database → Reply α) :
    Alike p d (s.run ⟨d, f⟩ action).storage := by
  have halike := alike_prepare hs hpath hd f
  rw [(s.run_eq_finish ⟨d, f⟩ action).1]
  rcases hprepare : s.prepare ⟨d, f⟩ with ⟨d', e | ⟨c, db⟩⟩
  · rw [hprepare] at halike
    exact halike
  · exact absurd (reaches_of_prepare hprepare) (not_reaches_of_disturbed hf c db)

/-- **An operation that only reads changes nothing for the next one**, whatever fails. -/
theorem alike_of_reading (hs : s.IsAt p.place d) (hpath : s.path = p) (hd : d.IsSound)
    (f : Failures) {action : Access → Database → Reply α}
    (hread : ∀ a db, (action a db).database = db) : Alike p d (s.run ⟨d, f⟩ action).storage := by
  by_cases hf : s.IsDisturbed f
  · exact alike_of_disturbed hs hpath hd hf action
  · have hp : p.toText ≠ Connection.memoryPath := hpath ▸ hs.path.2
    rw [(run_of_clear hs hpath hf action).1, finish_of_reading hp hd f hread]
    exact alike_look hp hd

/-- **A call that does not report changes nothing for the next one**, whatever fails. -/
theorem alike_after (hs : s.IsAt p.place d) (hpath : s.path = p) (hd : d.IsSound) (f : Failures)
    (c : Call) : Alike p d (s.after ⟨d, f⟩ c).2 := by
  cases c with
  | names => exact alike_of_reading hs hpath hd f fun _ _ => rfl
  | history name => exact alike_of_reading hs hpath hd f fun _ _ => rfl
  | close =>
    have hstorage : (s.after ⟨d, f⟩ .close).2 = d := (s.close_spec ⟨d, f⟩).1
    rw [hstorage]
    exact .refl p d
  | visit failure =>
    have hstorage : (s.after ⟨d, f⟩ (.visit failure)).2 = (s.names ⟨d, f⟩).storage :=
      ((s.names ⟨d, f⟩).store.close_spec _).1
    rw [hstorage]
    exact alike_of_reading hs hpath hd f fun _ _ => rfl
  | breakConnection => exact .refl p d

/-! ## Where nothing can be made -/

theorem look_of_not_admits (hd : ¬d.Admits p) :
    ∃ e, look p d = ((d.ensureDirectory p.parent).1, .error e) := by
  obtain ⟨e, he⟩ := connect_of_not_admits hd {}
  exact ⟨e, by rw [look_eq, he]⟩

theorem fileId?_of_not_admits (hd : ¬d.Admits p) : d.fileId? p = none := by
  cases hid : d.fileId? p with
  | none => rfl
  | some id => exact absurd (Disk.admits_of_isDirectory (Disk.isDirectory_parent hid)) hd

/-- Where a store found that the directories can be made, they are there. -/
theorem admits_finish (hd : d.Admits p) (hp : p.toText ≠ Connection.memoryPath) (hsound : d.IsSound)
    (f : Failures) (action : Access → Database → Reply α) :
    (finish f (look p d) action).1.Admits p := by
  rcases hlook : look p d with ⟨d', e | ⟨c, db⟩⟩
  · have hadmits : (Host.connect ⟨d, {}⟩ p).1.Admits p := by
      rcases alike_connect hp d {} with ⟨-, hyes, -⟩ | ⟨hno, -⟩
      · exact hyes
      · exact absurd hd hno
    rw [look_eq_error hlook]
    exact hadmits
  · obtain ⟨-, id, rfl, hid, -⟩ := look_eq_ok hp hsound hlook
    exact Disk.admits_of_isDirectory (Disk.isDirectory_parent
      ((Disk.extends_setContent d' id _).fileId? hid))

end Store

end PerfLedger
