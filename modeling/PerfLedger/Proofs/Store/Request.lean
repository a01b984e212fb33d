import PerfLedger.Store.Basic

/-!
# Requests

The operations of a store that need its database are requests of one kind: they report, or ask for
the names of the tests, or for the history of one. Each of them runs an action on the database, and
has the fault of that run as the cause of its own error (`ask_eq`). So what holds of every run holds
of every request.
-/

namespace PerfLedger

/-- What a store is asked to do with its database. -/
inductive Request where
  | report (r : Results)
  | names
  | history (name : Value)

/-- What a store answers. -/
inductive Answer where
  | reported
  | names (names : List String)
  | history (history : History)

/-- The reply with its answer in another form. -/
def Reply.map {α β : Type} (f : α → β) (reply : Reply α) : Reply β :=
  { database := reply.database, result := reply.result.map f, events := reply.events }

/-- The outcome with its answer in another form. -/
def Outcome.map {ε α β : Type} (f : α → β) (o : Outcome ε α) : Outcome ε β :=
  { store := o.store, storage := o.storage, result := o.result.map f, events := o.events }

namespace Request

/-- What a request does with the database. -/
def action (q : Request) (a : Access) (db : Database) : Reply Answer :=
  match q with
  | .report r => (db.record a r).map fun _ => .reported
  | .names => Reply.map .names { database := db, result := db.testNames a }
  | .history name => Reply.map .history { database := db, result := db.history a name }

/-- The error of a request, with its cause. -/
def error : Request → Path → StoreFault → StoreError
  | .report _ => .report
  | .names => .names
  | .history _ => .history

end Request

namespace Store

/-- What becomes of a request to a store. -/
def ask (s : Store) (h : Host) : Request → Outcome StoreError Answer
  | .report r => (s.report h r).map fun _ => .reported
  | .names => (s.names h).map .names
  | .history name => (s.history h name).map .history

theorem run_map (s : Store) (h : Host) {α β : Type} (f : α → β)
    (action : Access → Database → Reply α) :
    (s.run h action).map f = s.run h fun a db => (action a db).map f := by
  unfold run
  split
  · rfl
  · split <;> rfl

theorem wrap_map {α β : Type} (o : Outcome StoreFault α) (error : StoreFault → StoreError)
    (f : α → β) : (o.wrap error).map f = (o.map f).wrap error := by
  obtain ⟨store, storage, result, events⟩ := o
  cases result <;> rfl

/-- **A request runs its action.** -/
theorem ask_eq (s : Store) (h : Host) (q : Request) :
    s.ask h q = (s.run h q.action).wrap (q.error s.path) := by
  cases q with
  | report r =>
    show ((s.run h _).wrap _).map _ = _
    rw [wrap_map, run_map]
    rfl
  | names =>
    show ((s.run h _).wrap _).map _ = _
    rw [wrap_map, run_map]
    rfl
  | history name =>
    show ((s.run h _).wrap _).map _ = _
    rw [wrap_map, run_map]
    rfl

end Store

end PerfLedger
