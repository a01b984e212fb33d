/-!
# Cursors

A cursor is a place in a text: the characters from there on, and how many characters, lines and
columns lie before it. The byte order mark takes no column. At the end of the text there is no
character to look at.
-/

namespace PerfLedger.Yaml

/-- A line end. -/
def isBreak (c : Char) : Bool :=
  c == '\n' || c == '\u0085' || c == '\u2028' || c == '\u2029'

/-- A space or a tab. -/
def isBlank (c : Char) : Bool :=
  c == ' ' || c == '\t'

/-- The line end that a line end counts as. -/
def breakChar (c : Char) : Char :=
  if c == '\u0085' then '\n' else c

/-- A place in a text. -/
structure Cursor where
  rest : List Char
  index : Nat := 0
  line : Nat := 0
  column : Nat := 0
  deriving Inhabited, DecidableEq

namespace Cursor

/-- The character at the cursor. -/
def peek? (c : Cursor) : Option Char :=
  c.rest.head?

/-- The character some places on. -/
def peekAt? (c : Cursor) (n : Nat) : Option Char :=
  c.rest[n]?

/-- A character at the cursor for which a test holds. -/
def sees (c : Cursor) (test : Char → Bool) : Bool :=
  c.peek?.any test

/-- The end of the text, or a character for which a test holds. -/
def endsOr (test : Char → Bool) : Option Char → Bool
  | none => true
  | some ch => test ch

/-- The end of the text, a blank or a line end. -/
def endsWord : Option Char → Bool :=
  endsOr fun ch => isBlank ch || isBreak ch

/-- The end of the text, a space or a line end. -/
def endsSpaced : Option Char → Bool :=
  endsOr fun ch => ch == ' ' || isBreak ch

/-- The end of the text or of the line. -/
def endsLine : Option Char → Bool :=
  endsOr isBreak

/-- The cursor behind a character. -/
def past (c : Cursor) (ch : Char) (rest : List Char) : Cursor :=
  if isBreak ch then { rest, index := c.index + 1, line := c.line + 1, column := 0 }
  else
    { rest, index := c.index + 1, line := c.line
      column := if ch == '\uFEFF' then c.column else c.column + 1 }

/-- The cursor some characters on. -/
def advance (c : Cursor) : Nat → Cursor
  | 0 => c
  | n + 1 =>
    match c.rest with
    | [] => c
    | ch :: rest => (c.past ch rest).advance n

@[simp] theorem rest_past (c : Cursor) (ch : Char) (rest : List Char) :
    (c.past ch rest).rest = rest := by
  unfold past
  split <;> rfl

@[simp] theorem rest_advance (c : Cursor) (n : Nat) : (c.advance n).rest = c.rest.drop n := by
  induction n generalizing c with
  | zero => simp [advance]
  | succ n ih =>
    unfold advance
    split
    · next h => simp [h]
    · next h => simp [ih, h]

/-- The cursor behind the characters for which a test holds. -/
def skipWhile (c : Cursor) (test : Char → Bool) : Cursor :=
  c.advance (c.rest.takeWhile test).length

theorem length_skipWhile (c : Cursor) (test : Char → Bool) :
    (c.skipWhile test).rest.length ≤ c.rest.length := by
  simp [skipWhile]

/-- The cursor behind spaces. -/
def skipSpaces (c : Cursor) : Cursor :=
  c.skipWhile (· == ' ')

/-- The cursor at the end of its line. -/
def skipLine (c : Cursor) : Cursor :=
  c.skipWhile fun ch => !isBreak ch

/-- The cursor behind a comment, if there is one. -/
def skipComment (c : Cursor) : Cursor :=
  if c.sees (· == '#') then c.skipLine else c

/-- A line end at the cursor, and the cursor behind it. -/
def breakAt? (c : Cursor) : Option (Char × Cursor) :=
  match c.rest with
  | ch :: _ => if isBreak ch then some (breakChar ch, c.advance 1) else none
  | [] => none

theorem length_breakAt? {c d : Cursor} {ch : Char} (h : c.breakAt? = some (ch, d)) :
    d.rest.length < c.rest.length := by
  unfold breakAt? at h
  split at h
  · next hr =>
    split at h
    · simp at h
      obtain ⟨_, rfl⟩ := h
      simp [hr]
    · simp at h
  · simp at h

/-- The cursor behind a line end, if there is one. -/
def skipBreak (c : Cursor) : Cursor :=
  match c.breakAt? with
  | some (_, d) => d
  | none => c

/-- A mark between documents at the cursor: three hyphens or three dots, and the end of a word. -/
def seesDocumentMark (c : Cursor) : Bool :=
  match c.rest with
  | x :: y :: z :: more =>
    ((x == '-' && y == '-' && z == '-') || (x == '.' && y == '.' && z == '.')) &&
      endsWord more.head?
  | _ => false

end Cursor

end PerfLedger.Yaml
