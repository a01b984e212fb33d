import PerfLedger.Files.Path
import PerfLedger.Text.Quoted

/-!
# Disks

A disk holds directories and files below a working directory. A *place* is where something can be:
the names on the way from the root, from the working directory, or from one of the directories
above it. Files have numbers, so that a file that was opened can still be reached by its number
after its name has been removed.

Paths are followed name by name: every name but the last has to lead to a directory, and two dots
lead from a directory to the one that holds it.
-/

namespace PerfLedger

/-- Where something can be: how many levels above the working directory the names start, or that
they start at the root. -/
structure Place where
  absolute : Bool
  levels : Nat
  names : List String
  deriving DecidableEq, Inhabited

/-- What stands at a place: a directory, or the file with a number. -/
inductive DiskEntry where
  | directory
  | file (id : Nat)
  deriving DecidableEq, Inhabited

/-- A disk with files of some content. Numbers of files are their positions. -/
structure Disk (α : Type) where
  entries : List (Place × DiskEntry) := []
  files : List α := []
  deriving Inhabited

/-- Why a path leads nowhere, or to the wrong thing. -/
inductive FileProblem where
  | missing
  | occupied
  | notDirectory
  | isDirectory
  | nameTooLong
  | nullCharacter
  deriving DecidableEq

/-- What cannot be done with a path. -/
structure FileFault where
  problem : FileProblem
  path : String
  deriving DecidableEq

/-- What is reported. -/
def FileFault.message (f : FileFault) : String :=
  let numbered (n : Nat) (reason : String) : String :=
    "[Errno " ++ toString n ++ "] " ++ reason ++ ": " ++ Text.quoted f.path
  match f.problem with
  | .missing => numbered 2 "No such file or directory"
  | .occupied => numbered 17 "File exists"
  | .notDirectory => numbered 20 "Not a directory"
  | .isDirectory => numbered 21 "Is a directory"
  | .nameTooLong => numbered 36 "File name too long"
  | .nullCharacter => "embedded null byte"

/-- The place where a path starts. -/
def Path.start (p : Path) : Place :=
  ⟨p.isAbsolute, 0, []⟩

/-- The directory that holds a place. Above the root there is only the root. -/
def Place.outer (p : Place) : Place :=
  if p.names = [] then (if p.absolute then p else { p with levels := p.levels + 1 })
  else { p with names := p.names.dropLast }

/-- A place inside a directory. -/
def Place.inner (p : Place) (name : String) : Place :=
  { p with names := p.names ++ [name] }

/-- The most bytes that a name may have. -/
def nameLimit : Nat := 255

/-- The most bytes that a path may have. -/
def pathLimit : Nat := 4095

namespace Disk

variable {α : Type}

/-- What stands at a place. The places that all paths start from are directories. -/
def entry? (d : Disk α) (p : Place) : Option DiskEntry :=
  if p.names = [] then some .directory
  else (d.entries.find? fun e => e.1 == p).map (·.2)

/-- The place that a name leads to from a directory. -/
def step (p : Place) (name : String) : Except FileProblem Place :=
  if name = ".." then .ok p.outer
  else if nameLimit < (Text.encodeUtf8 name.toList).length then .error .nameTooLong
  else .ok (p.inner name)

/-- The place that names lead to. There need not be anything at it, but there have to be
directories on the way. -/
def follow (d : Disk α) (p : Place) : List String → Except FileProblem Place
  | [] => .ok p
  | n :: ns =>
    match d.entry? p with
    | none => .error .missing
    | some (.file _) => .error .notDirectory
    | some .directory => do d.follow (← step p n) ns

/-- The place that a path leads to. -/
def locate (d : Disk α) (p : Path) : Except FileProblem Place :=
  if p.toText.toList.contains '\x00' then .error .nullCharacter
  else if pathLimit < p.byteCount then .error .nameTooLong
  else d.follow p.start p.names

/-- What a path leads to, if there is anything. -/
def find? (d : Disk α) (p : Path) : Option DiskEntry :=
  match d.locate p with
  | .ok place => d.entry? place
  | .error _ => none

/-- A path that leads to a directory. -/
def isDirectory (d : Disk α) (p : Path) : Bool :=
  d.find? p == some .directory

/-- The number of the file that a path leads to. -/
def fileId? (d : Disk α) (p : Path) : Option Nat :=
  match d.find? p with
  | some (.file id) => some id
  | _ => none

/-- The content of the file with a number. -/
def content? (d : Disk α) (id : Nat) : Option α :=
  d.files[id]?

/-- The disk with the content of a file replaced. -/
def setContent (d : Disk α) (id : Nat) (content : α) : Disk α :=
  { d with files := d.files.set id content }

/-- The disk with something put at a place. -/
def put (d : Disk α) (p : Place) (e : DiskEntry) : Disk α :=
  { d with entries := (p, e) :: d.entries }

/-! ## Directories -/

/-- The disk with a new directory. -/
def makeDirectory (d : Disk α) (p : Path) : Except FileProblem (Disk α) := do
  let place ← d.locate p
  match d.entry? place with
  | some _ => .error .occupied
  | none => .ok (d.put place .directory)

/-- Whether a directory that could not be made is there anyway. -/
def settle (d : Disk α) (p : Path) (problem : FileProblem) : Except FileFault Unit :=
  if d.isDirectory p then .ok () else .error ⟨problem, p.toText⟩

/-- The disk with a directory and all those above it, which are made where they are missing.
Directories that were made stay, even if a later one cannot be made. -/
def ensureDirectory (d : Disk α) (p : Path) : Disk α × Except FileFault Unit :=
  match d.makeDirectory p with
  | .ok d => (d, .ok ())
  | .error .missing =>
    if _ : p.names = [] then (d, .error ⟨.missing, p.toText⟩)
    else
      match d.ensureDirectory p.parent with
      | (d, .error f) => (d, .error f)
      | (d, .ok _) =>
        match d.makeDirectory p with
        | .ok d => (d, .ok ())
        | .error problem => (d, d.settle p problem)
  | .error problem => (d, d.settle p problem)
termination_by p.names.length
decreasing_by
  have : p.names.length ≠ 0 := by simp_all
  rw [Path.length_parent]
  omega

/-! ## Files -/

/-- The number of the file at a path, which is made with the given content if there is none. -/
def openFile (d : Disk α) (p : Path) (content : α) : Except FileFault (Disk α × Nat) :=
  match d.locate p with
  | .error problem => .error ⟨problem, p.toText⟩
  | .ok place =>
    match d.entry? place with
    | some .directory => .error ⟨.isDirectory, p.toText⟩
    | some (.file id) => .ok (d, id)
    | none =>
      let id := d.files.length
      .ok ({ d with files := d.files ++ [content] }.put place (.file id), id)

/-- The disk with a file of the given content at a path. A file that was there keeps its number. -/
def write (d : Disk α) (p : Path) (content : α) : Except FileFault (Disk α) := do
  let (d, id) ← d.openFile p content
  return d.setContent id content

/-- The content of the file at a path. -/
def read (d : Disk α) (p : Path) : Except FileFault α :=
  match d.locate p with
  | .error problem => .error ⟨problem, p.toText⟩
  | .ok place =>
    match d.entry? place with
    | some .directory => .error ⟨.isDirectory, p.toText⟩
    | some (.file id) =>
      match d.content? id with
      | some content => .ok content
      | none => .error ⟨.missing, p.toText⟩
    | none => .error ⟨.missing, p.toText⟩

/-- The disk without the file at a path. Its content stays under its number. -/
def remove (d : Disk α) (p : Path) : Except FileFault (Disk α) :=
  match d.locate p with
  | .error problem => .error ⟨problem, p.toText⟩
  | .ok place =>
    match d.entry? place with
    | some .directory => .error ⟨.isDirectory, p.toText⟩
    | some (.file _) => .ok { d with entries := d.entries.filter fun e => e.1 != place }
    | none => .error ⟨.missing, p.toText⟩

end Disk

end PerfLedger
