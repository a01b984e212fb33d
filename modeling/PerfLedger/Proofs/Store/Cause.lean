import PerfLedger.Proofs.Store.FirstFault
import PerfLedger.Proofs.Store.Lifecycle

/-!
# The cause of an error

Between a request to a store and its database many steps can fail: a directory is made, a file
opened, the first statement run, and the tables are created. For each stage there is a relation that
tells which of its steps is the first to fail, and how (`Host.FailsToConnect`,
`Host.FailsToCreate`), as there is for what follows in the database (`Request.Fails`).

If a step fails, the ones after it are not taken, but it may be attempted again, and a connection
that was opened or held is closed, which may fail as well. So a request meets a list of faults
(`Store.Meets`), and its error has one of them as the cause (`cause_of_faults`). Once there is a
connection, it is the first one. On the way to one, it is the last: the fault of a directory in its
last attempt, and where the first statement on a new connection fails and then the connection
refuses to be closed, the latter (`cause_is_not_first_fault`).
-/

namespace PerfLedger

open Database

/-- What goes wrong when a connection is closed. -/
def Connection.closingFaults (failures : Failures) (c : Connection) : List StoreFault :=
  match c.close failures with
  | .ok _ => []
  | .error f => [.database f]

/-! ## Connecting -/

namespace Disk

variable {α : Type} {d d' : Disk α} {p : Path} {f : FileFault} {fs fs' : List FileFault}

/-- The faults of the attempts at a directory that cannot be made, and at those above it. Where the
one above is missing, that is made before the next attempt. -/
inductive FailsToMake (d : Disk α) : Path → List FileFault → Prop where
  | refused {p : Path} {problem : FileProblem} (made : d.makeDirectory p = .error problem)
      (known : problem ≠ .missing) (absent : d.isDirectory p = false) :
      FailsToMake d p [⟨problem, p.toText⟩]
  | top {p : Path} (made : d.makeDirectory p = .error .missing) (names : p.names = []) :
      FailsToMake d p [⟨.missing, p.toText⟩]
  | above {p : Path} {fs : List FileFault} (made : d.makeDirectory p = .error .missing)
      (names : p.names ≠ []) (rest : FailsToMake d p.parent fs) :
      FailsToMake d p (⟨.missing, p.toText⟩ :: fs)
  | again {p : Path} {d' : Disk α} {problem : FileProblem}
      (made : d.makeDirectory p = .error .missing) (names : p.names ≠ [])
      (parent : d.ensureDirectory p.parent = (d', .ok ()))
      (again : d'.makeDirectory p = .error problem) (absent : d'.isDirectory p = false) :
      FailsToMake d p [⟨.missing, p.toText⟩, ⟨problem, p.toText⟩]

theorem settle_eq_error {problem : FileProblem} :
    d.settle p problem = .error f ↔ d.isDirectory p = false ∧ f = ⟨problem, p.toText⟩ := by
  unfold settle
  cases d.isDirectory p <;> simp [eq_comm]

/-- A directory that cannot be made fails with the last of these faults. -/
theorem ensureDirectory_of_failsToMake (h : d.FailsToMake p fs) :
    ∃ d' f, d.ensureDirectory p = (d', .error f) ∧ fs.getLast? = some f := by
  induction h with
  | @refused p problem made known absent =>
    have heq : d.ensureDirectory p = (d, d.settle p problem) := by
      rw [ensureDirectory, made]
      cases problem with
      | missing => exact absurd rfl known
      | _ => rfl
    rw [heq, settle_eq_error.mpr ⟨absent, rfl⟩]
    exact ⟨_, _, rfl, rfl⟩
  | top made names =>
    rw [ensureDirectory, made]
    exact ⟨_, _, dif_pos names, rfl⟩
  | @above p fs made names rest ih =>
    obtain ⟨d', f, hparent, hlast⟩ := ih
    rw [ensureDirectory, made]
    simp only [names, dite_false, hparent]
    refine ⟨_, f, rfl, ?_⟩
    rw [List.getLast?_cons, hlast, Option.getD_some]
  | again made names parent again absent =>
    rw [ensureDirectory, made]
    simp only [names, dite_false, parent, again]
    exact ⟨_, _, Prod.ext rfl (settle_eq_error.mpr ⟨absent, rfl⟩), rfl⟩

theorem exists_failsToMake (h : d.ensureDirectory p = (d', .error f)) :
    ∃ fs, d.FailsToMake p fs := by
  fun_induction ensureDirectory d p generalizing d' f with
  | case1 p made hm => exact absurd h (by simp)
  | case2 p hm hn => exact ⟨_, .top hm hn⟩
  | case3 p hm hn d' g hp ih =>
    obtain ⟨fs, hrest⟩ := ih hp
    exact ⟨_, .above hm hn hrest⟩
  | case4 p hm hn d' u hp d'' hm' ih => exact absurd h (by simp)
  | case5 p hm hn d' u hp problem hm' ih =>
    exact ⟨_, .again hm hn hp hm' (settle_eq_error.mp (congrArg Prod.snd h)).1⟩
  | case6 p problem known made =>
    exact ⟨_, .refused made known (settle_eq_error.mp (congrArg Prod.snd h)).1⟩

/-- The faults of making a directory are determined. -/
theorem FailsToMake.unique (h : d.FailsToMake p fs) (h' : d.FailsToMake p fs') : fs = fs' := by
  induction h generalizing fs' with
  | refused made known absent => cases h' <;> simp_all
  | top made names => cases h' <;> simp_all
  | above made names rest ih =>
    cases h' with
    | refused made' known absent => simp_all
    | top made' names' => exact absurd names' names
    | above made' names' rest' => rw [ih rest']
    | again made' names' parent again absent =>
      obtain ⟨d', f, hparent, -⟩ := ensureDirectory_of_failsToMake rest
      simp [hparent] at parent
  | again made names parent again absent =>
    cases h' with
    | refused made' known absent' => simp_all
    | top made' names' => exact absurd names' names
    | above made' names' rest' =>
      obtain ⟨d', f, hparent, -⟩ := ensureDirectory_of_failsToMake rest'
      simp [hparent] at parent
    | again made' names' parent' again' absent' => simp_all

end Disk

namespace Host

variable {h : Host} {p : Path} {c : Connection} {f : StoreFault} {fs : List StoreFault}

/-- The first step on the way to a connection that fails, and what fails after it: a directory may
take several attempts, and a connection on which the first statement failed is closed. -/
inductive FailsToConnect (h : Host) (p : Path) : List StoreFault → Prop where
  | directories {fs : List FileFault} (fails : h.storage.FailsToMake p.parent fs) :
      FailsToConnect h p (fs.map .file)
  | name {d : Storage} (made : h.storage.ensureDirectory p.parent = (d, .ok ()))
      (null : p.toText.toList.contains '\x00' = true) :
      FailsToConnect h p [.file ⟨.nullCharacter, p.toText⟩]
  | opening {d : Storage} {f : DatabaseFault}
      (made : h.storage.ensureDirectory p.parent = (d, .ok ()))
      (null : p.toText.toList.contains '\x00' = false)
      (opened : Connection.openAt d p = .error f) : FailsToConnect h p [.database f]
  | settings {d d' : Storage} {c : Connection}
      (made : h.storage.ensureDirectory p.parent = (d, .ok ()))
      (null : p.toText.toList.contains '\x00' = false)
      (opened : Connection.openAt d p = .ok (d', c)) (refused : h.failures.settings = true) :
      FailsToConnect h p (.database (.system "pragma failed") :: c.closingFaults h.failures)

/-- What fails on the way to a connection is determined. -/
theorem FailsToConnect.unique {fs' : List StoreFault} (hfs : h.FailsToConnect p fs)
    (hfs' : h.FailsToConnect p fs') : fs = fs' := by
  have hmade {d : Storage} {fs : List FileFault} (hfails : h.storage.FailsToMake p.parent fs) :
      h.storage.ensureDirectory p.parent ≠ (d, .ok ()) := by
    obtain ⟨d', f, hmade, -⟩ := Disk.ensureDirectory_of_failsToMake hfails
    simp [hmade]
  cases hfs with
  | directories fails =>
    cases hfs' with
    | directories fails' => rw [fails.unique fails']
    | name made => exact absurd made (hmade fails)
    | opening made => exact absurd made (hmade fails)
    | settings made => exact absurd made (hmade fails)
  | name made => cases hfs' with
    | directories fails => exact absurd made (hmade fails)
    | _ => simp_all
  | opening made => cases hfs' with
    | directories fails => exact absurd made (hmade fails)
    | _ => simp_all
  | settings made => cases hfs' with
    | directories fails => exact absurd made (hmade fails)
    | _ => simp_all

/-- What connecting answers with is the last fault that it meets. -/
theorem connect_of_failsToConnect (hfails : h.FailsToConnect p fs) :
    ∃ f, fs.getLast? = some f ∧ (h.connect p).2 = .error f := by
  cases hfails with
  | directories fails =>
    obtain ⟨d, f, made, hlast⟩ := Disk.ensureDirectory_of_failsToMake fails
    refine ⟨.file f, ?_, by simp only [connect, made]⟩
    rw [List.getLast?_map, hlast, Option.map_some]
  | name made null =>
    exact ⟨.file ⟨.nullCharacter, p.toText⟩, rfl, by simp only [connect, made, null, if_true]⟩
  | @opening d f made null opened =>
    refine ⟨.database f, rfl, ?_⟩
    simp only [connect, made, null, opened, Bool.false_eq_true, if_false]
  | @settings d d' c made null opened refused =>
    cases hclose : c.close h.failures with
    | error f =>
      refine ⟨.database f, by simp [Connection.closingFaults, hclose], ?_⟩
      simp only [connect, made, null, opened, refused, hclose, Bool.false_eq_true, if_false,
        if_true]
    | ok u =>
      refine ⟨.database (.system "pragma failed"), by simp [Connection.closingFaults, hclose], ?_⟩
      simp only [connect, made, null, opened, refused, hclose, Bool.false_eq_true, if_false,
        if_true]

theorem exists_failsToConnect (herror : (h.connect p).2 = .error f) :
    ∃ fs, h.FailsToConnect p fs := by
  unfold connect at herror
  split at herror
  · next made =>
    obtain ⟨fs, fails⟩ := Disk.exists_failsToMake made
    exact ⟨_, .directories fails⟩
  · next made =>
    split at herror
    · next null => exact ⟨_, .name made null⟩
    · next null =>
      have null := eq_false_of_ne_true null
      split at herror
      · next opened => exact ⟨_, .opening made null opened⟩
      · next opened =>
        split at herror
        · next refused => exact ⟨_, .settings made null opened refused⟩
        · exact absurd herror (by simp)

end Host

/-! ## Creating the tables -/

/-- The second table cannot be created after the first one, if it is missing and nothing can be
written. -/
theorem Connection.ensureTables_eq_error {c : Connection} {d : Storage} {f : DatabaseFault} :
    c.ensureTables d = .error f ↔ c.ensureFirstTable d = .error f ∨
      ∃ d' c', c.ensureFirstTable d = .ok (d', c') ∧ (∀ db, c'.content d' ≠ .database db) ∧
        c'.isWritable d' = false ∧ f = .readOnly := by
  simp only [ensureTables, bind_eq_error, Prod.exists]
  refine or_congr_right (exists_congr fun d' => exists_congr fun c' => and_congr_right fun _ => ?_)
  cases hcontent : c'.content d' with
  | database db => simp [pure, Except.pure]
  | half => cases c'.isWritable d' <;> simp [pure, Except.pure, eq_comm]
  | bytes bs => cases c'.isWritable d' <;> simp [pure, Except.pure, eq_comm]

namespace Host

variable {h : Host} {c : Connection} {f : StoreFault}

/-- The statements that create the tables are run, be it only the first one. -/
def RunsSchema (h : Host) : Prop :=
  h.failures.schema = none ∨ h.failures.halfway = true

/-- The first step on the way to the tables of a connection that fails. -/
inductive FailsToCreate (h : Host) (c : Connection) : StoreFault → Prop where
  | schema {m : String} (fails : h.failures.schema = some m) (early : h.failures.halfway = false) :
      FailsToCreate h c (.database (.system m))
  | statement (runs : h.RunsSchema) (broken : c = .broken) : FailsToCreate h c .noStatements
  | first {f : DatabaseFault} (runs : h.RunsSchema) (whole : c ≠ .broken)
      (refused : c.ensureFirstTable h.storage = .error f) : FailsToCreate h c (.database f)
  | between {m : String} {next : Storage × Connection} (fails : h.failures.schema = some m)
      (late : h.failures.halfway = true) (whole : c ≠ .broken)
      (made : c.ensureFirstTable h.storage = .ok next) : FailsToCreate h c (.database (.system m))
  | second {d : Storage} {c' : Connection} (works : h.failures.schema = none) (whole : c ≠ .broken)
      (made : c.ensureFirstTable h.storage = .ok (d, c'))
      (missing : ∀ db, c'.content d ≠ .database db) (refused : c'.isWritable d = false) :
      FailsToCreate h c (.database .readOnly)

theorem failTables_of_whole (late : h.failures.halfway = true) (whole : c ≠ .broken) (m : String) :
    (h.failTables c m).2 = match c.ensureFirstTable h.storage with
      | .error f => .database f
      | .ok _ => .database (.system m) := by
  cases c with
  | broken => exact absurd rfl whole
  | file p id =>
    simp only [failTables, late, Bool.not_true, Bool.false_eq_true, if_false]
    cases (Connection.file p id).ensureFirstTable h.storage <;> rfl
  | memory content =>
    simp only [failTables, late, Bool.not_true, Bool.false_eq_true, if_false]
    cases (Connection.memory content).ensureFirstTable h.storage <;> rfl

/-- The first step that fails where the creation of the tables is made to fail. -/
theorem failTables_eq {m : String} (fails : h.failures.schema = some m) :
    (h.failTables c m).2 = f ↔ h.FailsToCreate c f := by
  cases late : h.failures.halfway with
  | false =>
    have heq : (h.failTables c m).2 = .database (.system m) := by simp [failTables, late]
    rw [heq]
    constructor
    · rintro rfl
      exact .schema fails late
    · intro hfails
      cases hfails <;> simp_all [RunsSchema]
  | true =>
    by_cases whole : c = .broken
    · have heq : (h.failTables c m).2 = .noStatements := by simp [failTables, late, whole]
      rw [heq]
      constructor
      · rintro rfl
        exact .statement (.inr late) whole
      · intro hfails
        cases hfails <;> simp_all
    · rw [failTables_of_whole late whole]
      cases made : c.ensureFirstTable h.storage with
      | error g =>
        constructor
        · rintro rfl
          exact .first (.inr late) whole made
        · intro hfails
          cases hfails <;> simp_all
      | ok next =>
        constructor
        · rintro rfl
          exact .between fails late whole made
        · intro hfails
          cases hfails <;> simp_all

/-- **Creating the tables for a store fails as the first of its steps that does.** -/
theorem ensureTables_eq_error : (h.ensureTables c).2 = .error f ↔ h.FailsToCreate c f := by
  cases works : h.failures.schema with
  | some m =>
    have heq : (h.ensureTables c).2 = .error (h.failTables c m).2 := by
      simp only [ensureTables, works]
    rw [heq, Except.error.injEq]
    exact failTables_eq works
  | none =>
    by_cases whole : c = .broken
    · have heq : (h.ensureTables c).2 = .error .noStatements := by
        simp only [ensureTables, works, whole]
      rw [heq, Except.error.injEq]
      constructor
      · rintro rfl
        exact .statement (.inl works) whole
      · intro hfails
        cases hfails <;> simp_all
    · have heq : (h.ensureTables c).2 = .error f ↔
          ∃ g, c.ensureTables h.storage = .error g ∧ StoreFault.database g = f := by
        rw [ensureTables_eq works (Connection.site?_ne_none.mpr whole)]
        cases c.ensureTables h.storage <;> simp
      rw [heq]
      constructor
      · rintro ⟨g, hg, rfl⟩
        rcases Connection.ensureTables_eq_error.mp hg with
          refused | ⟨d, c', made, missing, refused, rfl⟩
        · exact .first (.inl works) whole refused
        · exact .second works whole made missing refused
      · intro hfails
        cases hfails with
        | schema fails early => exact absurd (works.symm.trans fails) (by simp)
        | statement runs broken => exact absurd broken whole
        | first runs whole refused =>
          exact ⟨_, Connection.ensureTables_eq_error.mpr (.inl refused), rfl⟩
        | between fails late whole made => exact absurd (works.symm.trans fails) (by simp)
        | second works whole made missing refused =>
          exact ⟨_, Connection.ensureTables_eq_error.mpr
            (.inr ⟨_, _, made, missing, refused, rfl⟩), rfl⟩

end Host

/-! ## Requests -/

namespace Request

/-- The first step of a request in its database that fails. -/
def Fails (q : Request) (a : Access) (db : Database) : StoreFault → Prop :=
  match q with
  | .report r => db.FailsToRecord a r
  | .names => db.FailsToName a
  | .history name => db.FailsToTell a name

/-- What is reported of a request that fails. -/
def failureText (q : Request) (p : Path) : String :=
  match q with
  | .report _ => "Could not open results datastore '" ++ p.toText ++ "'."
  | .names => "Could not load test history from datastore '" ++ p.toText ++ "'."
  | .history _ => "Could not load results from datastore '" ++ p.toText ++ "'."

theorem action_eq_error {q : Request} {a : Access} {db : Database} {f : StoreFault} :
    (q.action a db).result = .error f ↔ q.Fails a db f := by
  cases q with
  | report r =>
    show (db.record a r).result.map _ = _ ↔ _
    rw [map_eq_error]
    exact record_eq_error
  | names =>
    show (db.testNames a).map _ = _ ↔ _
    rw [map_eq_error]
    exact testNames_eq_error
  | history name =>
    show (db.history a name).map _ = _ ↔ _
    rw [map_eq_error]
    exact history_eq_error

theorem error_spec (q : Request) (p : Path) (f : StoreFault) :
    (q.error p f).cause? = some f ∧ (q.error p f).message = q.failureText p := by
  cases q with
  | report r => exact ⟨rfl, rfl⟩
  | names => exact ⟨rfl, rfl⟩
  | history name => exact ⟨rfl, rfl⟩

end Request

namespace Store

variable {s : Store} {h : Host} {q : Request} {c : Connection} {d : Storage} {f : StoreFault}
  {fs : List StoreFault}

/-- The faults that a request meets, in the order in which they occur, and the one that it tells. -/
inductive Meets (s : Store) (h : Host) (q : Request) : List StoreFault → StoreFault → Prop where
  /-- Of the faults on the way to a connection the last one is told. -/
  | connecting {fs : List StoreFault} {f : StoreFault} (held : s.connection = none)
      (fails : h.FailsToConnect s.path fs) (last : fs.getLast? = some f) : Meets s h q fs f
  /-- A connection whose tables cannot be created is closed, and that may fail, too. -/
  | creating {d : Storage} {c : Connection} {f : StoreFault} (gets : s.Gets h d c)
      (fails : Host.FailsToCreate { h with storage := d } c f) :
      Meets s h q (f :: c.closingFaults h.failures) f
  | acting {d : Storage} {c : Connection} {db : Database} {f : StoreFault}
      (reaches : s.Reaches h c d db) (fails : q.Fails (h.access d c) db f) : Meets s h q [f] f

theorem not_failsToConnect (hgets : s.Gets h d c) (held : s.connection = none) :
    ¬h.FailsToConnect s.path fs := by
  intro hfails
  rcases hgets with ⟨hc, -⟩ | ⟨-, hconnect⟩
  · exact absurd (held.symm.trans hc) (by simp)
  · obtain ⟨f, -, herror⟩ := Host.connect_of_failsToConnect hfails
    rw [hconnect] at herror
    exact absurd herror (by simp)

/-- A store reaches a database over the connection that it acquired. -/
theorem reaches_iff_of_acquire (hacq : s.acquire h = (d, .ok c, s.openings)) {c' : Connection}
    {d' : Storage} {db : Database} :
    s.Reaches h c' d' db ↔
      Host.ensureTables { h with storage := d } c = (d', .ok (c', db)) := by
  simp only [Reaches, hacq, Except.ok.injEq, exists_eq_left']

/-- Without a connection, a request meets what keeps it from one, and tells the last of that. -/
theorem meets_of_acquire_eq_error (hacq : s.acquire h = (d, .error f, []))
    (hnone : s.connection = none) (hgets : ∀ d c, ¬s.Gets h d c) :
    ∃ faults, ∀ fs g, s.Meets h q fs g ↔ fs = faults ∧ g = f := by
  have hconnect : (h.connect s.path).2 = .error f := by
    obtain ⟨p, held⟩ := s
    obtain rfl : held = none := hnone
    rcases hconn : h.connect p with ⟨d', c | c⟩
    · simp only [acquire, hconn, Prod.mk.injEq, Except.error.injEq] at hacq
      rw [hacq.2.1]
    · simp [acquire, hconn] at hacq
  have hreaches {c : Connection} {d : Storage} {db : Database} : ¬s.Reaches h c d db := by
    rintro ⟨c₀, hc₀, -⟩
    exact absurd hc₀ (by simp [hacq])
  obtain ⟨faults, hfails⟩ := Host.exists_failsToConnect hconnect
  obtain ⟨f', hlast, hf'⟩ := Host.connect_of_failsToConnect hfails
  obtain rfl := Except.error.inj (hconnect.symm.trans hf')
  refine ⟨faults, fun fs g => ⟨?_, ?_⟩⟩
  · intro hmeets
    cases hmeets with
    | connecting held fails last =>
      obtain rfl := fails.unique hfails
      exact ⟨rfl, Option.some.inj (last.symm.trans hlast)⟩
    | creating gets fails => exact absurd gets (hgets _ _)
    | acting reaches fails => exact absurd reaches hreaches
  · rintro ⟨rfl, rfl⟩
    exact .connecting hnone hfails hlast

/-- If the tables cannot be created, no database is reached, and the connection is closed. -/
theorem meets_of_ensureTables_eq_error (hacq : s.acquire h = (d, .ok c, s.openings))
    (hgets : ∀ d' c', s.Gets h d' c' ↔ d' = d ∧ c' = c)
    (htables : (Host.ensureTables { h with storage := d } c).2 = .error f) {g : StoreFault} :
    s.Meets h q fs g ↔ fs = f :: c.closingFaults h.failures ∧ g = f := by
  have hget : s.Gets h d c := (hgets d c).mpr ⟨rfl, rfl⟩
  have hreaches {c' : Connection} {d' : Storage} {db : Database} : ¬s.Reaches h c' d' db := by
    rw [reaches_iff_of_acquire hacq]
    intro heq
    rw [heq] at htables
    exact absurd htables (by simp)
  constructor
  · intro hmeets
    cases hmeets with
    | connecting held fails last => exact absurd fails (not_failsToConnect hget held)
    | creating gets fails =>
      obtain ⟨rfl, rfl⟩ := (hgets _ _).mp gets
      rw [Host.ensureTables_eq_error.mpr fails] at htables
      obtain rfl := Except.error.inj htables
      exact ⟨rfl, rfl⟩
    | acting reaches fails => exact absurd reaches hreaches
  · rintro ⟨rfl, rfl⟩
    exact .creating hget (Host.ensureTables_eq_error.mp htables)

/-- Whatever is met by a request that reaches a database is met in the database. -/
theorem meets_of_reaches {c' : Connection} {d' : Storage} {db : Database}
    (hacq : s.acquire h = (d, .ok c, s.openings))
    (hgets : ∀ d' c', s.Gets h d' c' ↔ d' = d ∧ c' = c)
    (htables : Host.ensureTables { h with storage := d } c = (d', .ok (c', db))) :
    s.Meets h q fs f ↔ fs = [f] ∧ q.Fails (h.access d' c') db f := by
  have hget : s.Gets h d c := (hgets d c).mpr ⟨rfl, rfl⟩
  have hreach : s.Reaches h c' d' db := (reaches_iff_of_acquire hacq).mpr htables
  constructor
  · intro hmeets
    cases hmeets with
    | connecting held fails last => exact absurd fails (not_failsToConnect hget held)
    | creating gets fails =>
      obtain ⟨rfl, rfl⟩ := (hgets _ _).mp gets
      have herror := Host.ensureTables_eq_error.mpr fails
      rw [htables] at herror
      exact absurd herror (by simp)
    | acting reaches fails =>
      obtain ⟨rfl, rfl, rfl⟩ := hreach.unique reaches
      exact ⟨rfl, fails⟩
  · rintro ⟨rfl, fails⟩
    exact .acting hreach fails

/-- **A request answers the fault that it tells of those it meets.** What it meets is determined. -/
theorem run_meets (s : Store) (h : Host) (q : Request) :
    ((∃ a, (s.run h q.action).result = .ok a) ∧ ∀ fs f, ¬s.Meets h q fs f) ∨
      ∃ faults f, (s.run h q.action).result = .error f ∧
        ∀ fs g, s.Meets h q fs g ↔ fs = faults ∧ g = f := by
  rcases s.acquire_gets h with ⟨d, c, hacq, hgets⟩ | ⟨d, f, hacq, hnone, hgets⟩
  · rcases htables : Host.ensureTables { h with storage := d } c with ⟨d', f | ⟨c', db⟩⟩
    · refine .inr ⟨f :: c.closingFaults h.failures, f, by simp only [run, hacq, htables], ?_⟩
      exact fun fs g => meets_of_ensureTables_eq_error hacq hgets (congrArg Prod.snd htables)
    · have hreach : s.Reaches h c' d' db := (reaches_iff_of_acquire hacq).mpr htables
      have hresult : (s.run h q.action).result = (q.action (h.access d' c') db).result :=
        (run_of_reaches hreach q.action).2.2
      simp only [meets_of_reaches hacq hgets htables, hresult, ← Request.action_eq_error]
      cases (q.action (h.access d' c') db).result with
      | error f => exact .inr ⟨[f], f, rfl, by grind⟩
      | ok a => exact .inl ⟨⟨a, rfl⟩, by simp⟩
  · obtain ⟨faults, hmeets⟩ := meets_of_acquire_eq_error (q := q) hacq hnone hgets
    exact .inr ⟨faults, f, by simp only [run, hacq], hmeets⟩

/-- The fault that is told is the first one, unless there are others on the way to a connection. -/
theorem Meets.head_or (hmeets : s.Meets h q fs f) :
    fs.head? = some f ∨
      (s.connection = none ∧ h.FailsToConnect s.path fs ∧ fs.getLast? = some f) := by
  cases hmeets with
  | connecting held fails last => exact .inr ⟨held, fails, last⟩
  | creating gets fails => exact .inl rfl
  | acting reaches fails => exact .inl rfl

/--
**The cause of an error is the fault that is told**, and hardly ever another one than the first.

Whatever a store holds, whatever is stored, whatever fails and whatever is asked: a request meets
certain faults, and tells one of them. If there are none, it answers. If there are, its error is the
one of its kind, names the path of the store, and has the fault that is told as the cause. This is
the first one, also if the connection that is given up refuses to be closed after that, unless the
store holds no connection and there are several faults on the way to one: then it is the last one.

Closing a store fails only if the connection that it holds refuses to be closed, and has that as the
cause.
-/
theorem cause_of_faults (s : Store) (h : Host) :
    (∀ q : Request,
      ((∃ a, (s.ask h q).result = .ok a) ∧ ∀ fs f, ¬s.Meets h q fs f) ∨
      ∃ faults f e, (∀ fs g, s.Meets h q fs g ↔ fs = faults ∧ g = f) ∧
        (s.ask h q).result = .error e ∧ e.message = q.failureText s.path ∧ e.cause? = some f ∧
        (faults.head? = some f ∨ (s.connection = none ∧ h.FailsToConnect s.path faults ∧
          faults.getLast? = some f))) ∧
      ((s.close h).result = .ok () ↔
        ∀ c, s.connection = some c → c.closingFaults h.failures = []) ∧
      ∀ c f, s.connection = some c → c.closingFaults h.failures = [f] →
        ∃ e, (s.close h).result = .error e ∧ e.cause? = some f ∧
          e.message = "Could not close datastore '" ++ s.path.toText ++ "'." := by
  refine ⟨?_, ?_, ?_⟩
  · intro q
    have hask : (s.ask h q).result = (s.run h q.action).result.mapError (q.error s.path) := by
      rw [ask_eq]
      rfl
    rcases s.run_meets h q with ⟨⟨a, hok⟩, hnone⟩ | ⟨faults, f, herror, hmeets⟩
    · exact .inl ⟨⟨a, by rw [hask, hok]; rfl⟩, hnone⟩
    · obtain ⟨hcause, hmessage⟩ := q.error_spec s.path f
      exact .inr ⟨faults, f, _, hmeets, by rw [hask, herror]; rfl, hmessage, hcause,
        ((hmeets faults f).mpr ⟨rfl, rfl⟩).head_or⟩
  · obtain ⟨p, held⟩ := s
    cases held with
    | none => simp [close]
    | some c =>
      simp only [close, mapError_eq_ok, Option.some.injEq, forall_eq', Connection.closingFaults]
      cases c.close h.failures <;> simp
  · rintro c f hc hf
    obtain ⟨p, held⟩ := s
    obtain rfl : held = some c := hc
    unfold Connection.closingFaults at hf
    cases hclose : c.close h.failures with
    | ok u => simp [hclose] at hf
    | error g =>
      rw [hclose] at hf
      obtain rfl : StoreFault.database g = f := (List.cons.inj hf).1
      exact ⟨.close p (.database g), by simp [close, hclose, Except.mapError], rfl, rfl⟩

/-- A disk with a file. -/
def sampleFile : Storage :=
  ⟨[(⟨false, 0, ["f"]⟩, .file 0)], [.bytes [0x78]]⟩

/-- A path that leads into the file as into a directory, by way of a directory that is missing. -/
def samplePath : Path :=
  ⟨"", ["m", "..", "f", "z.db"]⟩

/--
**The first fault is not always the cause.**

The first statement on a new connection fails, and the connection that is closed for that refuses to
be closed. The error has the second of these faults as its cause.

Likewise, a directory cannot be made because the one above it is missing, and when that was made, it
turns out that there is a file in its place.
-/
theorem cause_is_not_first_fault :
    ((new sampleStore.path).Meets ⟨{}, { settings := true, closing := true }⟩ .names
        [.database (.system "pragma failed"), .database .closeFailed] (.database .closeFailed) ∧
      ((new sampleStore.path).ask ⟨{}, { settings := true, closing := true }⟩ .names).result
        = .error (.names sampleStore.path (.database .closeFailed))) ∧
    (new samplePath).Meets ⟨sampleFile, {}⟩ .names
        [.file ⟨.missing, "m/../f"⟩, .file ⟨.occupied, "m/../f"⟩] (.file ⟨.occupied, "m/../f"⟩) ∧
      ((new samplePath).ask ⟨sampleFile, {}⟩ .names).result
        = .error (.names samplePath (.file ⟨.occupied, "m/../f"⟩)) := by
  refine ⟨⟨?_, ?_⟩, ?_, ?_⟩
  · have made : Disk.ensureDirectory ({} : Storage) sampleStore.path.parent = ({}, .ok ()) :=
      Disk.ensureDirectory_of_isDirectory (by decide +kernel)
    have null : sampleStore.path.toText.toList.contains '\x00' = false := by decide +kernel
    obtain ⟨d, opened⟩ : ∃ d, Connection.openAt {} sampleStore.path
        = .ok (d, .file sampleStore.path 0) := ⟨_, rfl⟩
    have hfails : Host.FailsToConnect ⟨{}, { settings := true, closing := true }⟩ sampleStore.path
        [.database (.system "pragma failed"), .database .closeFailed] :=
      .settings made null opened rfl
    exact .connecting rfl hfails rfl
  · have hresult : ((new sampleStore.path).ask ⟨{}, { settings := true, closing := true }⟩
        .names).result.map (fun _ => ())
        = .error (.names sampleStore.path (.database .closeFailed)) := by
      decide +kernel
    exact map_eq_error.mp hresult
  · have parent : (sampleFile.ensureDirectory samplePath.parent.parent).2 = .ok () := by
      decide +kernel
    have again : (Disk.makeDirectory (sampleFile.ensureDirectory samplePath.parent.parent).1
        samplePath.parent).map (fun _ => ()) = .error .occupied := by
      decide +kernel
    have hfails : sampleFile.FailsToMake samplePath.parent
        [⟨.missing, "m/../f"⟩, ⟨.occupied, "m/../f"⟩] :=
      .again rfl (by decide) (Prod.ext rfl parent) (map_eq_error.mp again) (by decide +kernel)
    have hconnect := Host.FailsToConnect.directories (h := ⟨sampleFile, {}⟩) hfails
    exact .connecting rfl hconnect rfl
  · have hresult : ((new samplePath).ask ⟨sampleFile, {}⟩ .names).result.map (fun _ => ())
        = .error (.names samplePath (.file ⟨.occupied, "m/../f"⟩)) := by
      decide +kernel
    exact map_eq_error.mp hresult

end Store

end PerfLedger
