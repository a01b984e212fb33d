import PerfLedger.Text.Utf8

/-!
# Paths

A path is a root and the names on the way from it. Reading a path drops empty names and single
dots; names of two dots are kept, since what they lead to depends on the disk. The path of no names
is the directory it is relative to, written as a dot.
-/

namespace PerfLedger

/-- A path: the slashes it starts with, and its names. -/
structure Path where
  root : String := ""
  names : List String
  deriving DecidableEq, Inhabited

namespace Path

/-- The slashes that a text starts with as a root: two keep their number, others count as one. -/
def rootOf (cs : List Char) : String :=
  match (cs.takeWhile (· == '/')).length with
  | 0 => ""
  | 2 => "//"
  | _ => "/"

/-- The parts of a text between slashes. -/
def parts (cs : List Char) : List String :=
  (cs.splitOn '/').map String.ofList

/-- The path that a text names. -/
def ofText (s : String) : Path where
  root := rootOf s.toList
  names := (parts s.toList).filter fun n => n != "" && n != "."

/-- The text of a path. -/
def toText (p : Path) : String :=
  if p.root = "" ∧ p.names = [] then "." else p.root ++ "/".intercalate p.names

/-- The path without its last name. A path of no names is its own parent. -/
def parent (p : Path) : Path :=
  { p with names := p.names.dropLast }

theorem length_parent (p : Path) : p.parent.names.length = p.names.length - 1 := by
  simp [parent]

/-- A path that starts at the root of the disk. -/
def isAbsolute (p : Path) : Bool :=
  p.root != ""

/-- The number of bytes of a path's text. -/
def byteCount (p : Path) : Nat :=
  (Text.encodeUtf8 p.toText.toList).length

end Path

end PerfLedger
