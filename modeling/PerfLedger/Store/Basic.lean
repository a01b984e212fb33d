import PerfLedger.Database.Connection
import PerfLedger.Store.History
import PerfLedger.Store.Record

/-!
# Stores

A store keeps results in the database at its path. It opens a connection when it first needs one
and holds it until it is closed. Before each operation the tables are created if they are missing;
if that fails the connection is given up, so that the next operation starts over.

Connections are closed in three places. A store that is closed tells if that fails. One that gives
up its connection does not. But where the first statement on a new connection fails, the connection
is closed before that is told, and if closing it fails as well, only this is told.

What an operation does to the outside is in its outcome: the new store, the new storage, and the
events that were logged, whether it answers or fails.
-/

namespace PerfLedger

/-- A store: its path, and the connection that it holds. -/
structure Store where
  path : Path
  connection : Option Connection := none
  deriving Inhabited

/-- The outside of a store: what is stored, and what currently fails. -/
structure Host where
  storage : Storage := {}
  failures : Failures := {}
  deriving Inhabited

/-- What an operation of a store leaves and answers. -/
structure Outcome (ε α : Type) where
  store : Store
  storage : Storage
  result : Except ε α
  events : List StoreEvent := []

/-- The outcome with a fault as the cause of an error. -/
def Outcome.wrap (o : Outcome StoreFault α) (error : StoreFault → StoreError) :
    Outcome StoreError α :=
  { store := o.store, storage := o.storage, result := o.result.mapError error
    events := o.events }

namespace Host

/-- Opens a connection, after making the directories above the path. Directories and the file stay,
even if a later step fails. -/
def connect (h : Host) (p : Path) : Storage × Except StoreFault Connection :=
  match h.storage.ensureDirectory p.parent with
  | (disk, .error f) => (disk, .error (.file f))
  | (disk, .ok _) =>
    if p.toText.toList.contains '\x00' then
      (disk, .error (.file ⟨.nullCharacter, p.toText⟩))
    else
      match Connection.openAt disk p with
      | .error f => (disk, .error (.database f))
      | .ok (disk, c) =>
        if h.failures.settings then
          match c.close h.failures with
          | .error f => (disk, .error (.database f))
          | .ok _ => (disk, .error (.database (.system "pragma failed")))
        else (disk, .ok c)

/-- What creating the tables of a connection leaves when it is to fail, and how it fails: at once,
or after the first table. -/
def failTables (h : Host) (c : Connection) (m : String) : Storage × StoreFault :=
  if !h.failures.halfway then (h.storage, .database (.system m))
  else
    match c with
    | .broken => (h.storage, .noStatements)
    | c =>
      match c.ensureFirstTable h.storage with
      | .error f => (h.storage, .database f)
      | .ok (disk, _) => (disk, .database (.system m))

/-- Creates the tables of a connection for a store. -/
def ensureTables (h : Host) (c : Connection) :
    Storage × Except StoreFault (Connection × Database) :=
  match h.failures.schema, c with
  | some m, c => let (disk, f) := h.failTables c m; (disk, .error f)
  | none, .broken => (h.storage, .error .noStatements)
  | none, c =>
    match c.ensureTables h.storage with
    | .error f => (h.storage, .error (.database f))
    | .ok (disk, c, db) => (disk, .ok (c, db))

/-- How the database of a connection is accessed. -/
def access (h : Host) (disk : Storage) (c : Connection) : Access where
  writable := c.isWritable disk
  failing := h.failures.statement

end Host

namespace Store

/-- A store for a path, not yet connected. -/
def new (p : Path) : Store where
  path := p

/-- Whether the store holds a connection. -/
def isOpen (s : Store) : Bool :=
  s.connection.isSome

/-- The connection that is held, or a new one, and the events of opening it. -/
def acquire (s : Store) (h : Host) :
    Storage × Except StoreFault Connection × List StoreEvent :=
  match s.connection with
  | some c => (h.storage, .ok c, [])
  | none =>
    match h.connect s.path with
    | (disk, .ok c) => (disk, .ok c, [.opened s.path])
    | (disk, .error f) => (disk, .error f, [])

/-- Runs an action on the database of a store. The action is told how it can access it. -/
def run (s : Store) (h : Host) (action : Access → Database → Reply α) : Outcome StoreFault α :=
  match s.acquire h with
  | (disk, .error f, events) =>
    { store := s, storage := disk, result := .error f, events }
  | (disk, .ok c, events) =>
    match { h with storage := disk }.ensureTables c with
    | (disk, .error f) =>
      { store := { s with connection := none }, storage := disk, result := .error f
        events := events ++ [.discarded s.path] }
    | (disk, .ok (c, db)) =>
      let reply := action (h.access disk c) db
      let (disk, c) := c.write disk reply.database
      { store := { s with connection := some c }, storage := disk, result := reply.result
        events := events ++ reply.events }

/-- Records the results of an execution. -/
def report (s : Store) (h : Host) (r : Results) : Outcome StoreError Unit :=
  (s.run h fun a db => db.record a r).wrap (.report s.path)

/-- The names of all tests in ascending order. -/
def names (s : Store) (h : Host) : Outcome StoreError (List String) :=
  (s.run h fun a db => { database := db, result := db.testNames a }).wrap (.names s.path)

/-- The history of a test. -/
def history (s : Store) (h : Host) (name : Value) : Outcome StoreError History :=
  (s.run h fun a db => { database := db, result := db.history a name }).wrap (.history s.path)

/-- Gives up the connection, if there is one. It is given up even if it refuses to be closed. -/
def close (s : Store) (h : Host) : Outcome StoreError Unit :=
  match s.connection with
  | none => { store := s, storage := h.storage, result := .ok () }
  | some c =>
    { store := { s with connection := none }, storage := h.storage
      result := (c.close h.failures).mapError fun f => .close s.path (.database f)
      events := [.closed s.path] }

/-- Does some work with a store and closes it, whatever the work answers. An error of closing takes
the place of the answer. -/
def closeAfter (s : Store) (h : Host) (work : Store → Host → Outcome StoreError α) :
    Outcome StoreError α :=
  let o := work s h
  let closing := o.store.close { h with storage := o.storage }
  { store := closing.store, storage := closing.storage
    result :=
      match closing.result with
      | .ok _ => o.result
      | .error e => .error e
    events := o.events ++ closing.events }

/-- Reads the names of all tests and closes the store; the work may fail after that with a reason
of its own. -/
def visit (s : Store) (h : Host) (failure : Option String) : Outcome StoreError Unit :=
  s.closeAfter h fun s h =>
    let o := s.names h
    { o with
      result :=
        match o.result, failure with
        | .error e, _ => .error e
        | .ok _, some reason => .error (.body reason)
        | .ok _, none => .ok () }

/-- The store with a connection that refuses to be closed in place of the one it held. -/
def breakConnection (s : Store) : Store :=
  { s with connection := some .broken }

end Store

end PerfLedger
