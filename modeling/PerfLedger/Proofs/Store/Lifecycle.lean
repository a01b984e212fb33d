import Mathlib.Data.List.Induction
import PerfLedger.Proofs.Store.Request

/-!
# The life of a store

A store is asked, closed and used in blocks, in any order and whatever fails, and logs when it opens
a connection and when it gives one up. The log tells whether it holds one: its events can be
followed from state to state (`StoreEvent.follow`), and whatever is done with the store keeps to
that (`Life.follows`). So openings and endings alternate, and a store is open as long as the last of
them is an opening (`lifecycle`).

The failures are those of the host, which may be another one each time; a statement that fails on
the way (`Life.fail`); and a connection that refuses to be closed, which may take the place of the
one that is held at any time, also inside of a block (`Life.breakConnection`).
-/

namespace PerfLedger

/-! ## Events -/

namespace StoreEvent

/-- An event that tells of the connection of a store. -/
def isOfConnection : StoreEvent → Bool
  | .stored _ _ _ => false
  | _ => true

/-- Whether a connection to a path is held after an event, if it can follow. -/
def follow (p : Path) (held : Bool) : StoreEvent → Option Bool
  | .opened q => if q = p ∧ held = false then some true else none
  | .discarded q | .closed q => if q = p ∧ held = true then some false else none
  | .stored _ _ _ => some held

/-- Openings and endings of connections to a path, in turn. -/
structure Alternate (p : Path) (es : List StoreEvent) : Prop where
  opening : ∀ i e, es[2 * i]? = some e → e = .opened p
  ending : ∀ i e, es[2 * i + 1]? = some e → e = .discarded p ∨ e = .closed p

variable {p : Path} {es : List StoreEvent} {held : Bool}

theorem alternate_nil (p : Path) : Alternate p [] :=
  ⟨fun i e he => absurd he (by simp), fun i e he => absurd he (by simp)⟩

theorem Alternate.concat_opened (h : Alternate p es) (heven : es.length % 2 = 0) :
    Alternate p (es ++ [.opened p]) := by
  constructor
  · intro i e he
    rw [List.getElem?_append] at he
    split at he
    · exact h.opening i e he
    · exact List.mem_singleton.mp (List.mem_of_getElem? he)
  · intro i e he
    rw [List.getElem?_append] at he
    split at he
    · exact h.ending i e he
    · -- The new event has an even place.
      next hge =>
      obtain ⟨hlt, -⟩ := List.getElem?_eq_some_iff.mp he
      rw [List.length_singleton] at hlt
      omega

theorem Alternate.concat_ending (h : Alternate p es) (hodd : es.length % 2 = 1) {e : StoreEvent}
    (hend : e = .discarded p ∨ e = .closed p) : Alternate p (es ++ [e]) := by
  constructor
  · intro i x hx
    rw [List.getElem?_append] at hx
    split at hx
    · exact h.opening i x hx
    · next hge =>
      obtain ⟨hlt, -⟩ := List.getElem?_eq_some_iff.mp hx
      rw [List.length_singleton] at hlt
      omega
  · intro i x hx
    rw [List.getElem?_append] at hx
    split at hx
    · exact h.ending i x hx
    · rw [List.mem_singleton.mp (List.mem_of_getElem? hx)]
      exact hend

/-- What can follow: an opening if no connection is held, an ending if one is, and at any time an
event that does not tell of connections. -/
theorem follow_eq_some {e : StoreEvent} {held' : Bool} (h : follow p held e = some held') :
    (e = .opened p ∧ held = false ∧ held' = true) ∨
      ((e = .discarded p ∨ e = .closed p) ∧ held = true ∧ held' = false) ∨
      (e.isOfConnection = false ∧ held' = held) := by
  cases e with
  | opened q =>
    simp only [follow, Option.ite_none_right_eq_some, Option.some.injEq] at h
    obtain ⟨⟨rfl, hheld⟩, hheld'⟩ := h
    exact .inl ⟨rfl, hheld, hheld'.symm⟩
  | discarded q =>
    simp only [follow, Option.ite_none_right_eq_some, Option.some.injEq] at h
    obtain ⟨⟨rfl, hheld⟩, hheld'⟩ := h
    exact .inr (.inl ⟨.inl rfl, hheld, hheld'.symm⟩)
  | closed q =>
    simp only [follow, Option.ite_none_right_eq_some, Option.some.injEq] at h
    obtain ⟨⟨rfl, hheld⟩, hheld'⟩ := h
    exact .inr (.inl ⟨.inr rfl, hheld, hheld'.symm⟩)
  | stored id name n => exact .inr (.inr ⟨rfl, (Option.some.inj h).symm⟩)

theorem isOfConnection_of_ending {e : StoreEvent} (h : e = .discarded p ∨ e = .closed p) :
    e.isOfConnection = true ∧ e ≠ .opened p := by
  rcases h with rfl | rfl
  · exact ⟨rfl, by simp⟩
  · exact ⟨rfl, by simp⟩

/-- **Events that can be followed alternate**, and the last one tells whether a connection is
held. -/
theorem alternate_of_follow (h : es.foldlM (follow p) false = some held) :
    Alternate p (es.filter isOfConnection) ∧
      (es.filter isOfConnection).length % 2 = held.toNat ∧
      (held = true ↔ (es.filter isOfConnection).getLast? = some (.opened p)) := by
  -- Events are added at the end, so the induction is on the end of the list.
  induction es using List.reverseRecOn generalizing held with
  | nil =>
    obtain rfl : false = held := Option.some.inj h
    exact ⟨alternate_nil p, rfl, by simp⟩
  | append_singleton es e ih =>
    rw [List.foldlM_append] at h
    obtain ⟨before, hbefore, hlast⟩ := Option.bind_eq_some_iff.mp h
    obtain ⟨halt, hlen, hopen⟩ := ih hbefore
    have hlast : follow p before e = some held := by simpa using hlast
    rcases follow_eq_some hlast with ⟨rfl, rfl, rfl⟩ | ⟨hend, rfl, rfl⟩ | ⟨hquiet, rfl⟩
    · rw [List.filter_append, List.filter_cons_of_pos rfl, List.filter_nil]
      refine ⟨halt.concat_opened hlen, ?_, by simp⟩
      rw [List.length_append, List.length_singleton, Nat.add_mod, hlen]
      rfl
    · obtain ⟨hloud, hne⟩ := isOfConnection_of_ending hend
      rw [List.filter_append, List.filter_cons_of_pos hloud, List.filter_nil]
      refine ⟨halt.concat_ending hlen hend, ?_, by simp [hne]⟩
      rw [List.length_append, List.length_singleton, Nat.add_mod, hlen]
      rfl
    · rw [List.filter_append, List.filter_cons_of_neg (by simp [hquiet]), List.filter_nil,
        List.append_nil]
      exact ⟨halt, hlen, hopen⟩

/-- Events that do not tell of connections leave it at that. -/
theorem foldlM_follow_of_quiet (h : ∀ e ∈ es, e.isOfConnection = false) (held : Bool) :
    es.foldlM (follow p) held = some held := by
  induction es with
  | nil => rfl
  | cons e es ih =>
    have he := h e List.mem_cons_self
    cases e with
    | stored id name n => exact ih fun x hx => h x (List.mem_cons_of_mem _ hx)
    | opened q => exact absurd he (by simp [isOfConnection])
    | discarded q => exact absurd he (by simp [isOfConnection])
    | closed q => exact absurd he (by simp [isOfConnection])

end StoreEvent

namespace Store

variable {s s' : Store} {h : Host} {α : Type} {action : Access → Database → Reply α}

/-! ## Runs -/

/-- A store gets a connection: the one it holds, or one that can be opened. -/
def Gets (s : Store) (h : Host) (d : Storage) (c : Connection) : Prop :=
  (s.connection = some c ∧ d = h.storage) ∨
    (s.connection = none ∧ h.connect s.path = (d, .ok c))

/-- The tables are there or can be created over a connection that the store gets. -/
def IsReady (s : Store) (h : Host) : Prop :=
  ∃ d c, s.Gets h d c ∧
    ∃ d' found, Host.ensureTables { h with storage := d } c = (d', .ok found)

/-- What a store logs when it gets a connection. -/
def openings (s : Store) : List StoreEvent :=
  if s.isOpen then [] else [.opened s.path]

/-- A store gets the connection that it acquires, and no other. -/
theorem acquire_gets (s : Store) (h : Host) :
    (∃ d c, s.acquire h = (d, .ok c, s.openings) ∧ ∀ d' c', s.Gets h d' c' ↔ d' = d ∧ c' = c) ∨
      ∃ d f, s.acquire h = (d, .error f, []) ∧ s.connection = none ∧ ∀ d' c', ¬s.Gets h d' c' := by
  obtain ⟨p, held⟩ := s
  cases held with
  | some c => exact .inl ⟨h.storage, c, rfl, fun d' c' => by simp [Gets, and_comm, eq_comm]⟩
  | none =>
    rcases hconn : h.connect p with ⟨d, c | c⟩
    · refine .inr ⟨d, c, by simp only [acquire, hconn], rfl, fun d' c' => by simp [Gets, hconn]⟩
    · refine .inl ⟨d, c, by simp only [acquire, hconn]; rfl, fun d' c' => ?_⟩
      simp [Gets, hconn, eq_comm]

/-- What becomes of the connection: none is opened; or the tables fail, and it is given up; or it is
held, whatever the action does. -/
theorem run_spec (s : Store) (h : Host) (action : Access → Database → Reply α) :
    (¬s.IsReady h ∧ (s.run h action).store = s ∧ s.isOpen = false ∧ (s.run h action).events = []) ∨
    (¬s.IsReady h ∧ (s.run h action).store = { s with connection := none } ∧
      (s.run h action).events = s.openings ++ [.discarded s.path]) ∨
    (s.IsReady h ∧ (∃ c, (s.run h action).store = { s with connection := some c }) ∧
      ∃ a db, (s.run h action).events = s.openings ++ (action a db).events) := by
  unfold run
  rcases s.acquire_gets h with ⟨d, c, hacq, hgets⟩ | ⟨d, f, hacq, hnone, hgets⟩
  · rcases htables : Host.ensureTables { h with storage := d } c with ⟨d', f | ⟨c', db⟩⟩
    · refine .inr (.inl ⟨?_, by simp only [hacq, htables], by simp only [hacq, htables]⟩)
      rintro ⟨d'', c'', hget, left, found, hfound⟩
      obtain ⟨rfl, rfl⟩ := (hgets d'' c'').mp hget
      rw [htables] at hfound
      exact absurd (congrArg Prod.snd hfound) (by simp)
    · refine .inr (.inr ⟨⟨d, c, (hgets d c).mpr ⟨rfl, rfl⟩, _, _, htables⟩, ?_, ?_⟩)
      · exact ⟨_, by simp only [hacq, htables]; rfl⟩
      · exact ⟨h.access d' c', db, by simp only [hacq, htables]⟩
  · rw [hacq]
    refine .inl ⟨?_, rfl, by simp [isOpen, hnone], rfl⟩
    rintro ⟨d', c', hget, -⟩
    exact hgets d' c' hget

/-- **After a run a store is open if and only if it got a connection and the tables.** -/
theorem isOpen_run_iff : (s.run h action).store.isOpen = true ↔ s.IsReady h := by
  rcases s.run_spec h action with
    ⟨hnot, hstore, hopen, -⟩ | ⟨hnot, hstore, -⟩ | ⟨hready, ⟨c, hc⟩, -⟩
  · simp [hstore, hopen, hnot]
  · simp [hstore, isOpen, hnot]
  · simp [hc, isOpen, hready]

theorem path_run (s : Store) (h : Host) (action : Access → Database → Reply α) :
    (s.run h action).store.path = s.path := by
  rcases s.run_spec h action with ⟨-, hstore, -⟩ | ⟨-, hstore, -⟩ | ⟨-, ⟨c, hc⟩, -⟩
  · rw [hstore]
  · rw [hstore]
  · rw [hc]

theorem openings_follow (s : Store) :
    s.openings.foldlM (StoreEvent.follow s.path) s.isOpen = some true := by
  cases hopen : s.isOpen with
  | true => simp [openings, hopen]
  | false => simp [openings, hopen, StoreEvent.follow]

/-- The events of a run can be followed, if its action logs none of connections. -/
theorem run_follows (hquiet : ∀ a db, ∀ e ∈ (action a db).events, e.isOfConnection = false) :
    (s.run h action).events.foldlM (StoreEvent.follow s.path) s.isOpen
      = some (s.run h action).store.isOpen := by
  rcases s.run_spec h action with
    ⟨-, hstore, -, hevents⟩ | ⟨-, hstore, hevents⟩ | ⟨-, ⟨c, hc⟩, a, db, hevents⟩
  · rw [hstore, hevents]
    rfl
  · rw [hstore, hevents, List.foldlM_append, s.openings_follow]
    simp [StoreEvent.follow, isOpen]
  · rw [hc, hevents, List.foldlM_append, s.openings_follow]
    exact StoreEvent.foldlM_follow_of_quiet (hquiet a db) true

theorem record_quiet (a : Access) (db : Database) (r : Results) :
    ∀ e ∈ (db.record a r).events, e.isOfConnection = false := by
  intro e he
  unfold Database.record at he
  split at he
  · exact absurd he List.not_mem_nil
  · split at he
    · exact absurd he List.not_mem_nil
    · split at he
      · exact absurd he List.not_mem_nil
      · split at he
        · exact absurd he List.not_mem_nil
        · rw [List.mem_singleton.mp he]
          rfl

theorem action_quiet (q : Request) (a : Access) (db : Database) :
    ∀ e ∈ (q.action a db).events, e.isOfConnection = false := by
  cases q with
  | report r => exact record_quiet a db r
  | names => exact fun e he => absurd he List.not_mem_nil
  | history name => exact fun e he => absurd he List.not_mem_nil

/-! ## Closing -/

theorem close_follows (s : Store) (h : Host) :
    (s.close h).store.path = s.path ∧ (s.close h).store.isOpen = false ∧
      (s.close h).events.foldlM (StoreEvent.follow s.path) s.isOpen = some false := by
  obtain ⟨p, held⟩ := s
  cases held with
  | none => exact ⟨rfl, rfl, rfl⟩
  | some c =>
    refine ⟨rfl, rfl, ?_⟩
    simp [close, isOpen, StoreEvent.follow]

/-! ## Lives -/

/-- An action of which a statement fails, whatever it has left in the tables by then. -/
def failing (left : Access → Database → Database) (f : StoreFault) (a : Access) (db : Database) :
    Reply Unit :=
  { database := left a db, result := .error f }

/-- What is done with a store, and what it logs meanwhile. -/
inductive Life : Store → List StoreEvent → Store → Prop where
  | idle (s : Store) : Life s [] s
  | andThen {s s' s'' : Store} {es es' : List StoreEvent} (first : Life s es s')
      (second : Life s' es' s'') : Life s (es ++ es') s''
  | ask (s : Store) (h : Host) (q : Request) : Life s (s.ask h q).events (s.ask h q).store
  | fail (s : Store) (h : Host) (left : Access → Database → Database) (f : StoreFault) :
      Life s (s.run h (failing left f)).events (s.run h (failing left f)).store
  | close (s : Store) (h : Host) : Life s (s.close h).events (s.close h).store
  /-- Something is done with the store, which is closed after that, whatever the answer is. -/
  | block (s : Store) (h : Host) {β : Type} (work : Store → Host → Outcome StoreError β)
      (body : Life s (work s h).events (work s h).store) :
      Life s (s.closeAfter h work).events (s.closeAfter h work).store
  /-- The connection that is held will refuse to be closed. -/
  | breakConnection {s : Store} (held : s.isOpen = true) : Life s [] s.breakConnection

/-- **Whatever is done with a store, its events can be followed.** -/
theorem Life.follows {es : List StoreEvent} (hlife : Life s es s') :
    s'.path = s.path ∧ es.foldlM (StoreEvent.follow s.path) s.isOpen = some s'.isOpen := by
  induction hlife with
  | idle s => exact ⟨rfl, rfl⟩
  | andThen _ _ ih ih' =>
    refine ⟨ih'.1.trans ih.1, ?_⟩
    rw [List.foldlM_append, ih.2, ← ih.1]
    exact ih'.2
  | ask s h q =>
    rw [ask_eq]
    exact ⟨s.path_run h q.action, run_follows (action_quiet q)⟩
  | fail s h left f =>
    exact ⟨s.path_run h _, run_follows fun a db e he => absurd he List.not_mem_nil⟩
  | close s h =>
    obtain ⟨hpath, hclosed, hfollow⟩ := s.close_follows h
    exact ⟨hpath, hfollow.trans (congrArg some hclosed.symm)⟩
  | block s h work _ ih =>
    obtain ⟨hpath, hclosed, hfollow⟩ :=
      (work s h).store.close_follows { h with storage := (work s h).storage }
    refine ⟨hpath.trans ih.1, ?_⟩
    show ((work s h).events ++ ((work s h).store.close _).events).foldlM _ _
      = some ((work s h).store.close _).store.isOpen
    rw [List.foldlM_append, ih.2, hclosed, ← ih.1]
    exact hfollow
  | breakConnection held => exact ⟨rfl, by rw [held]; rfl⟩

/--
**The life of a store.**

Let anything be done with a new store, whatever fails. The events of its log that tell of
connections are openings and endings in turn, from an opening on, and the store is open exactly if
the last of them is an opening.

After a request, and after any other run of an action on its database, it is open exactly if it got
a connection, one that it held or one that could be opened, and the tables over it, whatever became
of the action. When it is closed, and when a block is left, it is not open, whatever failed.
-/
theorem lifecycle {p : Path} {es : List StoreEvent} (hlife : Life (.new p) es s) :
    (StoreEvent.Alternate p (es.filter StoreEvent.isOfConnection) ∧
        (s.isOpen = true ↔
          (es.filter StoreEvent.isOfConnection).getLast? = some (.opened p))) ∧
      (∀ h, (∀ q, (s.ask h q).store.isOpen = true ↔ s.IsReady h) ∧
        ∀ {β : Type} (action : Access → Database → Reply β),
          (s.run h action).store.isOpen = true ↔ s.IsReady h) ∧
      ∀ h, (s.close h).store.isOpen = false ∧
        ∀ {β : Type} (work : Store → Host → Outcome StoreError β),
          (s.closeAfter h work).store.isOpen = false := by
  obtain ⟨halternate, -, hopen⟩ := StoreEvent.alternate_of_follow hlife.follows.2
  refine ⟨⟨halternate, hopen⟩, fun h => ⟨fun q => ?_, fun action => isOpen_run_iff⟩, fun h => ?_⟩
  · rw [ask_eq]
    exact isOpen_run_iff
  · exact ⟨(s.close_follows h).2.1, fun work => ((work s h).store.close_follows _).2.1⟩

/-- A store whose connection breaks starts over with a new one, and gives that up at the end of a
block. -/
theorem lifecycle_broken :
    let p : Path := ⟨"", ["a.db"]⟩
    let es : List StoreEvent := [.opened p, .discarded p, .opened p, .closed p]
    ∃ s, Life (.new p) es s ∧ StoreEvent.Alternate p es ∧ s.isOpen = false := by
  intro p es
  let work (s : Store) (h : Host) : Outcome StoreError Answer := s.ask h .names
  let opened : Store := ((new p).ask {} .names).store
  let discarded : Store := (opened.breakConnection.ask {} .names).store
  have hasked : ((new p).ask {} .names).events = [.opened p] := by decide +kernel
  have hopen : opened.isOpen = true := by decide +kernel
  have hfailed : (opened.breakConnection.ask {} .names).events = [.discarded p] := by
    decide +kernel
  have hblock : (discarded.closeAfter {} work).events = [.opened p, .closed p] := by
    decide +kernel
  have hfirst : Life (.new p) [.opened p] opened := hasked ▸ .ask (new p) {} .names
  have hsecond : Life opened [.discarded p] discarded :=
    hfailed ▸ .andThen (.breakConnection hopen) (.ask _ {} .names)
  have hthird : Life discarded [.opened p, .closed p] (discarded.closeAfter {} work).store :=
    hblock ▸ .block discarded {} work (.ask _ {} .names)
  have hbefore : Life (.new p) [.opened p, .discarded p] discarded := hfirst.andThen hsecond
  have hlife : Life (.new p) es (discarded.closeAfter {} work).store := hbefore.andThen hthird
  exact ⟨_, hlife, (lifecycle hlife).1.1, ((lifecycle hbefore).2.2 {}).2 work⟩

end Store

end PerfLedger
