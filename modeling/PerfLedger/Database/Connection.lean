import PerfLedger.Database.Basic
import PerfLedger.Files.Disk

/-!
# Connections

A file holds bytes until the tables are created in it, first the one of executions and then the one
of operations. A file of at most one byte counts as an empty database; other bytes are no database.
A connection is to a file or to a database in memory, which is gone when the connection is closed. A
file that is no longer at the path under which it was opened can be read but not written.
-/

namespace PerfLedger

/-- The content of a file. -/
inductive FileContent where
  | bytes (bs : List UInt8)
  /-- The table of executions alone, without a row. -/
  | half
  | database (db : Database)
  deriving Inhabited

/-- Disks with such files. -/
abbrev Storage := Disk FileContent

namespace FileContent

/-- A file without content. -/
def empty : FileContent := .bytes []

/-- The database in a file, if it has both tables. -/
def database? : FileContent → Except DatabaseFault (Option Database)
  | .database db => .ok (some db)
  | .half => .ok none
  | .bytes bs => if bs.length ≤ 1 then .ok none else .error .notDatabase

/-- The database in a file that has to have tables. -/
def tables : FileContent → Except DatabaseFault Database
  | .database db => .ok db
  | .half => .error (.noTable Database.operationTable)
  | .bytes bs =>
    if bs.length ≤ 1 then .error (.noTable Database.executionTable) else .error .notDatabase

end FileContent

/-- A connection to a file, or to memory; or one that refuses to be closed and runs nothing. -/
inductive Connection where
  | file (path : Path) (id : Nat)
  | memory (content : FileContent)
  | broken
  deriving Inhabited

/-- What fails besides what the disk makes fail. -/
structure Failures where
  /-- The first statement on a new connection fails. -/
  settings : Bool := false
  /-- Connections refuse to be closed. -/
  closing : Bool := false
  /-- The creation of the tables fails, in these words. -/
  schema : Option String := none
  /-- It does so only after the first table. -/
  halfway : Bool := false
  /-- A statement of an operation fails: the one with this number, in these words. -/
  statement : Option (Nat × String) := none
  deriving Inhabited, DecidableEq

namespace Connection

/-- The path that stands for memory. -/
def memoryPath : String := ":memory:"

/-- Opens the file at a path, which is made if there is none. -/
def openAt (disk : Storage) (p : Path) : Except DatabaseFault (Storage × Connection) :=
  if p.toText = memoryPath then .ok (disk, .memory FileContent.empty)
  else
    match disk.openFile p FileContent.empty with
    | .ok (disk, id) => .ok (disk, .file p id)
    | .error _ => .error .cannotOpen

/-- The content that a connection shows. -/
def content (disk : Storage) : Connection → FileContent
  | .file _ id => (disk.content? id).getD .empty
  | .memory c => c
  | .broken => .empty

/-- Whether what the connection is to can be written. -/
def isWritable (disk : Storage) : Connection → Bool
  | .file p id => disk.fileId? p == some id
  | _ => true

/-- Writes what a file is to hold. -/
def put (disk : Storage) (content : FileContent) : Connection → Storage × Connection
  | .file p id => (disk.setContent id content, .file p id)
  | .memory _ => (disk, .memory content)
  | .broken => (disk, .broken)

/-- Writes a database. -/
def write (disk : Storage) (db : Database) (c : Connection) : Storage × Connection :=
  c.put disk (.database db)

/-- Creates the table of executions if it is missing. -/
def ensureFirstTable (disk : Storage) (c : Connection) :
    Except DatabaseFault (Storage × Connection) :=
  match c.content disk with
  | .database _ | .half => .ok (disk, c)
  | .bytes bs =>
    if 1 < bs.length then .error .notDatabase
    else if c.isWritable disk then .ok (c.put disk .half)
    else .error .readOnly

/-- The database of a connection, with the tables created if they are missing. -/
def ensureTables (disk : Storage) (c : Connection) :
    Except DatabaseFault (Storage × Connection × Database) := do
  let (disk, c) ← c.ensureFirstTable disk
  match c.content disk with
  | .database db => return (disk, c, db)
  | _ =>
    if c.isWritable disk then
      let (disk, c) := c.write disk {}
      return (disk, c, {})
    else .error .readOnly

/-- Closes a connection. -/
def close (f : Failures) : Connection → Except DatabaseFault Unit
  | .broken => .error .closeFailed
  | .file .. | .memory _ => if f.closing then .error .closeFailed else .ok ()

end Connection

end PerfLedger
