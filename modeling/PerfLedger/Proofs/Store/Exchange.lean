import PerfLedger.Store.Direct
import PerfLedger.Proofs.Store.Recovery

/-!
# What connections have to do with answers

Stores of one path are asked while nothing is wrong on the way to the database, and their answers
are logged, together with the rows that are in the file after each. Between that they are started,
closed, read and used in blocks, connections break, and requests fail on the way (`Turn`).

Nothing of that shows in the log: it is what new stores would have answered to the same requests,
one for each (`Turns.follows`). So the log depends on the requests alone, and on the statements that
fail in the database (`matches_of_requests`).

A store that failed on the way, or was closed, even if that failed, holds no connection any more. So
it can be asked again as soon as nothing is wrong (`clear_of_failed`, `clear_of_closed`).
-/

namespace PerfLedger

open Database

/-- A request, the statement that fails in it, if one does, its answer, and the tables in the file
afterwards, if there is one. -/
structure Exchange where
  request : Request
  failing : Option (Nat × String)
  answer : Except StoreError Answer
  rows : Except DatabaseFault (Option Database)

/-- What is asked in an exchange, and what fails in it. -/
def Exchange.asked (e : Exchange) : Request × Option (Nat × String) :=
  (e.request, e.failing)

/-- Two exchanges in which the same is asked, with the same message or answer, and the same rows.
Only the cause of an error may be another one, and not even that if they have to be the same
exactly. -/
structure Exchange.Matches (exactly : Prop) (e e' : Exchange) : Prop where
  asked : e.asked = e'.asked
  message : e.answer.mapError StoreError.message = e'.answer.mapError StoreError.message
  rows : e.rows = e'.rows
  answer : exactly → e.answer = e'.answer

theorem Exchange.Matches.symm {exactly : Prop} {e e' : Exchange} (h : e.Matches exactly e') :
    e'.Matches exactly e :=
  ⟨h.asked.symm, h.message.symm, h.rows.symm, fun hex => (h.answer hex).symm⟩

theorem Exchange.Matches.trans {exactly : Prop} {e e' e'' : Exchange} (h : e.Matches exactly e')
    (h' : e'.Matches exactly e'') : e.Matches exactly e'' :=
  ⟨h.asked.trans h'.asked, h.message.trans h'.message, h.rows.trans h'.rows,
    fun hex => (h.answer hex).trans (h'.answer hex)⟩

namespace Store

variable {s : Store} {p : Path} {d d' : Storage} {f : Failures} {q : Request}

/-- What is logged of a request to a store. -/
def exchange (s : Store) (h : Host) (q : Request) : Exchange where
  request := q
  failing := h.failures.statement
  answer := (s.ask h q).result
  rows := Host.tables? ⟨(s.ask h q).storage, {}⟩ s.path

/-! ## One request -/

theorem new_isAt (hp : p.toText ≠ Connection.memoryPath) (d : Storage) :
    (new p).IsAt p.place d :=
  isAt_of_connection_eq_none ⟨rfl, hp⟩ rfl

/-- A store without a connection can be asked if one can be opened and tables can be created. -/
theorem clear_of_connection_eq_none (hs : s.connection = none) (hschema : f.schema = none)
    (hsettings : f.settings = false) : ¬s.IsDisturbed f := by
  simp [IsDisturbed, hs, hschema, hsettings]

theorem new_not_isDisturbed (p : Path) (failing : Option (Nat × String)) :
    ¬(new p).IsDisturbed { statement := failing } :=
  clear_of_connection_eq_none rfl rfl rfl

/-- **A store that failed on the way can be asked again.** -/
theorem clear_of_failed {f' : Failures} (hs : s.IsDisturbed f') (q : Request)
    (hschema : f.schema = none) (hsettings : f.settings = false) :
    ¬(s.ask ⟨d, f'⟩ q).store.IsDisturbed f := by
  refine clear_of_connection_eq_none ?_ hschema hsettings
  obtain ⟨-, hstore⟩ := run_of_not_reaches (h := ⟨d, f'⟩)
    (fun c _ db => not_reaches_of_disturbed hs c db) q.action
  rw [ask_eq]
  show (s.run ⟨d, f'⟩ q.action).store.connection = none
  rcases hstore with ⟨hsame, hnone⟩ | hgiven
  · rw [hsame, hnone]
  · rw [hgiven]

/-- **A store that was closed can be asked again**, even if closing it failed. -/
theorem clear_of_closed (s : Store) (h : Host) (hschema : f.schema = none)
    (hsettings : f.settings = false) : ¬(s.close h).store.IsDisturbed f := by
  refine clear_of_connection_eq_none ?_ hschema hsettings
  rw [(s.close_spec h).2]

theorem ask_of_clear (hs : s.IsAt p.place d) (hpath : s.path = p) (hclear : ¬s.IsDisturbed f)
    (q : Request) :
    (s.ask ⟨d, f⟩ q).storage = (finish f (look p d) q.action).1 ∧
      (s.ask ⟨d, f⟩ q).result = (finish f (look p d) q.action).2.mapError (q.error p) := by
  obtain ⟨hstorage, hresult⟩ := run_of_clear hs hpath hclear q.action
  rw [ask_eq, ← hpath]
  subst hpath
  exact ⟨hstorage, congrArg (Except.mapError (q.error s.path)) hresult⟩

/-- What a request leaves of a store for a file, whatever fails. -/
theorem IsAt.ask {place : Place} {h : Host} (hs : s.IsAt place h.storage) (hd : h.storage.IsSound)
    (q : Request) :
    (s.ask h q).store.IsAt place (s.ask h q).storage ∧ (s.ask h q).storage.IsSound ∧
      h.storage.Extends (s.ask h q).storage ∧ (s.ask h q).store.path = s.path := by
  obtain ⟨hat, hsound, hext, -⟩ := hs.run hd q.action
  rw [ask_eq]
  exact ⟨hat, hsound, hext, s.path_run h q.action⟩

theorem message_error (q : Request) (p : Path) (e e' : StoreFault) :
    (q.error p e).message = (q.error p e').message := by
  cases q <;> rfl

theorem tables?_of_not_admits (hd : ¬d.Admits p) : Host.tables? ⟨d, {}⟩ p = .ok none := by
  rw [Host.tables?, fileId?_of_not_admits hd]
  rfl

/-- **On disks that look alike a request is answered alike**, and leaves such disks. -/
theorem exchange_matches (hp : p.toText ≠ Connection.memoryPath) (halike : Alike p d d')
    (hs : s.IsAt p.place d') (hpath : s.path = p) (hclear : ¬s.IsDisturbed f) (q : Request) :
    ((new p).exchange ⟨d, { statement := f.statement }⟩ q).Matches (d.Admits p)
        (s.exchange ⟨d', f⟩ q) ∧
      Alike p ((new p).ask ⟨d, { statement := f.statement }⟩ q).storage
        (s.ask ⟨d', f⟩ q).storage := by
  obtain ⟨hstorage, hresult⟩ :=
    ask_of_clear (new_isAt hp d) rfl (new_not_isDisturbed p f.statement) q
  obtain ⟨hstorage', hresult'⟩ := ask_of_clear hs hpath hclear q
  -- Of what may fail, an action is only told the statement.
  have hfinish (found : Storage × Except StoreFault (Connection × Database)) :
      finish f found q.action = finish { statement := f.statement } found q.action := rfl
  rw [hfinish] at hstorage' hresult'
  rcases halike with ⟨-, -, hlook⟩ | ⟨hd, hd'⟩
  · rw [← hlook] at hstorage' hresult'
    refine ⟨⟨rfl, ?_, ?_, fun _ => hresult.trans hresult'.symm⟩, ?_⟩
    · exact congrArg _ (hresult.trans hresult'.symm)
    · show Host.tables? ⟨((new p).ask _ q).storage, {}⟩ p
        = Host.tables? ⟨(s.ask _ q).storage, {}⟩ s.path
      rw [hstorage, hstorage', hpath]
    · rw [hstorage, hstorage']
      exact .refl p _
  · obtain ⟨e, he⟩ := look_of_not_admits hd
    obtain ⟨e', he'⟩ := look_of_not_admits hd'
    rw [he] at hstorage hresult
    rw [he'] at hstorage' hresult'
    -- The directories that were made do not help.
    have hafter : Alike p ((new p).ask ⟨d, { statement := f.statement }⟩ q).storage
        (s.ask ⟨d', f⟩ q).storage := by
      rw [hstorage, hstorage']
      exact .inr ⟨fun hyes => hd (hyes.of_gains (d.ensureDirectory_gains _)),
        fun hyes => hd' (hyes.of_gains (d'.ensureDirectory_gains _))⟩
    refine ⟨⟨rfl, ?_, ?_, fun hyes => absurd hyes hd⟩, hafter⟩
    · show ((new p).ask _ q).result.mapError _ = (s.ask _ q).result.mapError _
      rw [hresult, hresult']
      exact congrArg Except.error (message_error q p e e')
    · show Host.tables? ⟨((new p).ask _ q).storage, {}⟩ p
        = Host.tables? ⟨(s.ask _ q).storage, {}⟩ s.path
      rcases hafter with ⟨hyes, -⟩ | ⟨hno, hno'⟩
      · rw [hstorage] at hyes
        exact absurd (hyes.of_gains (d.ensureDirectory_gains _)) hd
      · rw [hpath, tables?_of_not_admits hno, tables?_of_not_admits hno']

/-! ## A new store for each request -/

/-- The exchanges of new stores, one for each request, of which only a statement may fail. -/
def replay (p : Path) : Storage → List (Request × Option (Nat × String)) → List Exchange
  | _, [] => []
  | d, q :: qs =>
    (new p).exchange ⟨d, { statement := q.2 }⟩ q.1 ::
      replay p ((new p).ask ⟨d, { statement := q.2 }⟩ q.1).storage qs

/-- The disk that they leave. -/
def replayed (p : Path) (d : Storage) (qs : List (Request × Option (Nat × String))) : Storage :=
  qs.foldl (fun d q => ((new p).ask ⟨d, { statement := q.2 }⟩ q.1).storage) d

theorem replay_concat (p : Path) (d : Storage) (qs : List (Request × Option (Nat × String)))
    (q : Request × Option (Nat × String)) :
    replay p d (qs ++ [q])
      = replay p d qs ++ [(new p).exchange ⟨replayed p d qs, { statement := q.2 }⟩ q.1] := by
  induction qs generalizing d with
  | nil => rfl
  | cons q' qs ih => exact congrArg _ (ih _)

theorem replayed_concat (p : Path) (d : Storage) (qs : List (Request × Option (Nat × String)))
    (q : Request × Option (Nat × String)) :
    replayed p d (qs ++ [q])
      = ((new p).ask ⟨replayed p d qs, { statement := q.2 }⟩ q.1).storage := by
  rw [replayed, List.foldl_append]
  rfl

/-- Directories that can be made at first can be made all the time. -/
theorem admits_replayed (hp : p.toText ≠ Connection.memoryPath) (hd : d.IsSound)
    (qs : List (Request × Option (Nat × String))) :
    Disk.IsSound (replayed p d qs) ∧ (d.Admits p → Disk.Admits (replayed p d qs) p) := by
  induction qs using List.reverseRecOn with
  | nil => exact ⟨hd, id⟩
  | append_singleton qs q ih =>
    rw [replayed_concat]
    constructor
    · rw [ask_eq]
      exact (run_isSound ih.1 (new_isSound p _) q.1.action).1
    · intro hadmits
      rw [(ask_of_clear (new_isAt hp _) rfl (new_not_isDisturbed p q.2) q.1).1]
      exact admits_finish (ih.2 hadmits) hp ih.1 _ q.1.action

end Store

/-! ## Turns -/

namespace Session

/-- One turn of stores of one path. Requests that are made while nothing is wrong on the way to the
database are logged. -/
inductive Turn (p : Path) : Session → List Exchange → Session → Prop where
  | start {d ss} : Turn p ⟨d, ss⟩ [] ⟨d, ss ++ [.new p]⟩
  | ask {d before s behind} (failures : Failures) (q : Request)
      (clear : ¬s.IsDisturbed failures) :
      Turn p ⟨d, before ++ s :: behind⟩ [s.exchange ⟨d, failures⟩ q]
        ⟨(s.ask ⟨d, failures⟩ q).storage, before ++ (s.ask ⟨d, failures⟩ q).store :: behind⟩
  /-- A request fails on the way to the database. -/
  | fail {d before s behind} (failures : Failures) (q : Request)
      (disturbed : s.IsDisturbed failures) :
      Turn p ⟨d, before ++ s :: behind⟩ []
        ⟨(s.ask ⟨d, failures⟩ q).storage, before ++ (s.ask ⟨d, failures⟩ q).store :: behind⟩
  /-- A store is read, closed or used in a block, or its connection breaks. -/
  | call {d before s behind} (failures : Failures) (c : Store.Call) :
      Turn p ⟨d, before ++ s :: behind⟩ []
        ⟨(s.after ⟨d, failures⟩ c).2, before ++ (s.after ⟨d, failures⟩ c).1 :: behind⟩
  /-- A store fails to connect, with some of the directories made. -/
  | unreachable {d ss q} (above : q.IsAbove p.parent) :
      Turn p ⟨d, ss⟩ [] ⟨(d.ensureDirectory q).1, ss⟩

/-- Any number of turns, with the log of the requests that were made while nothing was wrong on the
way to the database. -/
inductive Turns (p : Path) (σ : Session) : List Exchange → Session → Prop where
  | done : Turns p σ [] σ
  | turn {log new σ' σ''} (turns : Turns p σ log σ') (turn : Turn p σ' new σ'') :
      Turns p σ (log ++ new) σ''

/-- The state of stores of one path after a log: the log is that of new stores, and the disk looks
like the one that these leave. -/
structure Follows (p : Path) (origin : Storage) (log : List Exchange) (σ : Session) : Prop where
  sound : σ.storage.IsSound
  paths : ∀ s ∈ σ.stores, s.path = p
  stores : ∀ s ∈ σ.stores, s.IsAt p.place σ.storage
  alike : Store.Alike p (Store.replayed p origin (log.map Exchange.asked)) σ.storage
  log : List.Forall₂ (Exchange.Matches (origin.Admits p))
    (Store.replay p origin (log.map Exchange.asked)) log

variable {p : Path} {origin : Storage} {log : List Exchange} {σ σ' : Session}

theorem follows_nil (hd : origin.IsSound) : Follows p origin [] ⟨origin, []⟩ :=
  ⟨hd, fun _ hs => absurd hs List.not_mem_nil, fun _ hs => absurd hs List.not_mem_nil, .refl p _,
    .nil⟩

/-- Nothing was logged, and the disk looks as before. -/
theorem Follows.quiet {d d' : Storage} {ss ss' : List Store} (h : Follows p origin log ⟨d, ss⟩)
    (hsound : d'.IsSound) (halike : Store.Alike p d d') (hpaths : ∀ s ∈ ss', s.path = p)
    (hstores : ∀ s ∈ ss', s.IsAt p.place d') : Follows p origin (log ++ []) ⟨d', ss'⟩ := by
  rw [List.append_nil]
  exact ⟨hsound, hpaths, hstores, h.alike.trans halike, h.log⟩

theorem path_after (s : Store) (h : Host) (c : Store.Call) : (s.after h c).1.path = s.path := by
  cases c with
  | names => exact s.path_run h _
  | history name => exact s.path_run h _
  | close => exact (s.close_follows h).1
  | visit failure =>
    exact (((s.names h).store.close_follows { h with storage := (s.names h).storage }).1).trans
      (s.path_run h _)
  | breakConnection => rfl

/-- An exchange is the one that a new store would have had. -/
theorem Follows.ask {d : Storage} {before behind : List Store} {s : Store} {f : Failures}
    (h : Follows p origin log ⟨d, before ++ s :: behind⟩)
    (hp : p.toText ≠ Connection.memoryPath) (horigin : origin.IsSound)
    (hclear : ¬s.IsDisturbed f) (q : Request) :
    Follows p origin (log ++ [s.exchange ⟨d, f⟩ q])
      ⟨(s.ask ⟨d, f⟩ q).storage, before ++ (s.ask ⟨d, f⟩ q).store :: behind⟩ := by
  have hmem : s ∈ before ++ s :: behind := List.mem_append_right _ List.mem_cons_self
  have hs := h.stores s hmem
  have hpath := h.paths s hmem
  obtain ⟨hat, hsound, hext, hkept⟩ := hs.ask (h := ⟨d, f⟩) h.sound q
  obtain ⟨hmatches, halike⟩ := Store.exchange_matches hp h.alike hs hpath hclear q
  obtain ⟨-, hadmits⟩ := Store.admits_replayed hp horigin (log.map Exchange.asked)
  have hrequests : (log ++ [s.exchange ⟨d, f⟩ q]).map Exchange.asked
      = log.map Exchange.asked ++ [(q, f.statement)] := by
    rw [List.map_append]
    rfl
  refine ⟨hsound, forall_mem_replace h.paths (fun _ hx => hx) (hkept.trans hpath),
    isAt_replace h.stores hext hat, ?_, ?_⟩
  · rw [hrequests, Store.replayed_concat]
    exact halike
  · rw [hrequests, Store.replay_concat]
    refine List.rel_append h.log (.cons ?_ .nil)
    exact ⟨hmatches.asked, hmatches.message, hmatches.rows,
      fun hex => hmatches.answer (hadmits hex)⟩

/-- **A turn shows only in its own exchange.** -/
theorem Turn.follows {new : List Exchange} (hp : p.toText ≠ Connection.memoryPath)
    (horigin : origin.IsSound) (hturn : Turn p σ new σ') (h : Follows p origin log σ) :
    Follows p origin (log ++ new) σ' := by
  cases hturn with
  | @start d ss =>
    exact h.quiet h.sound (.refl p d) (forall_mem_start h.paths rfl)
      (forall_mem_start h.stores (Store.new_isAt hp d))
  | ask f q clear => exact h.ask hp horigin clear q
  | @fail d before s behind f q disturbed =>
    have hmem : s ∈ before ++ s :: behind := List.mem_append_right _ List.mem_cons_self
    have hs := h.stores s hmem
    have hpath := h.paths s hmem
    obtain ⟨hat, hsound, hext, hkept⟩ := hs.ask (h := ⟨d, f⟩) h.sound q
    have halike : Store.Alike p d (s.ask ⟨d, f⟩ q).storage := by
      rw [Store.ask_eq]
      exact Store.alike_of_disturbed hs hpath h.sound disturbed q.action
    exact h.quiet hsound halike
      (forall_mem_replace h.paths (fun _ hx => hx) (hkept.trans hpath))
      (isAt_replace h.stores hext hat)
  | @call d before s behind f c =>
    have hmem : s ∈ before ++ s :: behind := List.mem_append_right _ List.mem_cons_self
    have hs := h.stores s hmem
    have hpath := h.paths s hmem
    obtain ⟨hkeep, hat⟩ := hs.after (h := ⟨d, f⟩) h.sound c
    exact h.quiet hkeep.sound (Store.alike_after hs hpath h.sound f c)
      (forall_mem_replace h.paths (fun _ hx => hx) ((path_after s _ c).trans hpath))
      (isAt_replace h.stores hkeep.ext hat)
  | @unreachable d ss q above =>
    have hgains := d.ensureDirectory_gains q
    exact h.quiet (h.sound.gainsDirectories hgains) (Store.alike_resume above) h.paths
      fun s hs => (h.stores s hs).mono hgains.ext

theorem Turns.follows (hp : p.toText ≠ Connection.memoryPath) (horigin : origin.IsSound)
    (hturns : Turns p ⟨origin, []⟩ log σ) : Follows p origin log σ := by
  induction hturns with
  | done => exact follows_nil horigin
  | turn _ hturn ih => exact hturn.follows hp horigin ih

/--
**Answers depend on requests alone.**

Let stores of one path be started and used on one disk in two ways, and let the requests that were
made while nothing was wrong on the way to the database be the same, with the same statements
failing in them, if any. However the stores were closed, used in blocks and started anew in between,
and whatever requests failed because no connection could be opened or no tables could be created, or
connections because they refused to be closed: each of these requests is answered the same in both,
and leaves the same rows.

Only where the directories above the file cannot be made, so that no request ever gets a connection,
the errors may name different directories as their cause.
-/
theorem matches_of_requests {d : Storage} {log' : List Exchange}
    (hp : p.toText ≠ Connection.memoryPath) (hd : d.IsSound) (hturns : Turns p ⟨d, []⟩ log σ)
    (hturns' : Turns p ⟨d, []⟩ log' σ') (hsame : log.map Exchange.asked = log'.map Exchange.asked) :
    List.Forall₂ (Exchange.Matches (d.Admits p)) log log' := by
  have hlog := (hturns.follows hp hd).log
  have hlog' := (hturns'.follows hp hd).log
  rw [← hsame] at hlog'
  exact forall₂_of_common hlog hlog' fun _ _ _ h h' => h.symm.trans h'

/-- A report and a question for names, through a new store each; and both through one store, which
failed before and refused to be closed in between. -/
theorem matches_of_requests_broken :
    let p := sampleStore.path
    ∃ log log' σ σ', Turns p ⟨{}, []⟩ log σ ∧ Turns p ⟨{}, []⟩ log' σ' ∧
      log.map Exchange.asked = [(.report sampleResults, none), (.names, none)] ∧
      log'.map Exchange.asked = [(.report sampleResults, none), (.names, none)] ∧
      Disk.Admits ({} : Storage) p ∧ σ'.stores.length = 1 ∧
      List.Forall₂ (Exchange.Matches (Disk.Admits ({} : Storage) p)) log log' := by
  intro p
  let faulty : Failures := { schema := some "disk I/O error", halfway := true }
  have hclear : ¬(Store.new p).IsDisturbed {} := Store.new_not_isDisturbed p none
  obtain ⟨σ, log, hlog, hturns⟩ : ∃ σ log,
      log.map Exchange.asked = [(.report sampleResults, none), (.names, none)] ∧
      Turns p ⟨{}, []⟩ log σ := by
    have hstart := (Turns.done (σ := ⟨{}, []⟩)).turn (@Turn.start p {} [])
    have hreport := hstart.turn (@Turn.ask p _ [] _ [] {} (.report sampleResults) hclear)
    have hagain := hreport.turn .start
    exact ⟨_, _, rfl, hagain.turn (@Turn.ask p _ [_] _ [] {} .names hclear)⟩
  obtain ⟨σ', log', hlog', hone, hturns'⟩ : ∃ σ log,
      log.map Exchange.asked = [(.report sampleResults, none), (.names, none)] ∧
      σ.stores.length = 1 ∧
      Turns p ⟨{}, []⟩ log σ := by
    have hdisturbed : (Store.new p).IsDisturbed faulty := .inl (by simp [faulty])
    have hstart := (Turns.done (σ := ⟨{}, []⟩)).turn (@Turn.start p {} [])
    have hfail := hstart.turn (@Turn.fail p _ [] _ [] faulty .names hdisturbed)
    have hreport := hfail.turn (@Turn.ask p _ [] _ [] {} (.report sampleResults)
      (Store.clear_of_failed hdisturbed .names rfl rfl))
    have hbroken := hreport.turn (@Turn.call p _ [] _ [] {} .breakConnection)
    have hclosed := hbroken.turn (@Turn.call p _ [] _ [] {} .close)
    exact ⟨_, _, rfl, rfl, hclosed.turn (@Turn.ask p _ [] _ [] {} .names
      (Store.clear_of_closed _ _ rfl rfl))⟩
  have hadmits : Disk.Admits ({} : Storage) p :=
    Disk.admits_of_isDirectory (by decide +kernel)
  exact ⟨log, log', σ, σ', hturns, hturns', hlog, hlog', hadmits, hone,
    matches_of_requests sample_isOf.2 Disk.isSound_empty hturns hturns' (hlog.trans hlog'.symm)⟩

end Session

end PerfLedger
