import PerfLedger.Yaml.Fault
import PerfLedger.Yaml.Token.Plain

/-!
# Block scalars

A block scalar has a header, which may say how far its lines are indented and what becomes of the
line ends behind the last line, and then lines with one indentation. A literal one keeps its line
ends; a folded one joins lines that do not begin with a blank.
-/

namespace PerfLedger.Yaml

/-- What becomes of the line ends at the end: none is kept, one, or all. -/
inductive Chomping where
  | strip
  | clip
  | keep
  deriving DecidableEq

/-- What a header says. -/
structure BlockHeader where
  chomping : Chomping := .clip
  indentation : Option Nat := none

/-- The chomping that an indicator asks for. -/
def chomping? : Option Char → Option Chomping
  | some '+' => some .keep
  | some '-' => some .strip
  | _ => none

/-- The indentation that an indicator asks for, which cannot be zero. -/
def indentation? (c : Option Char) : Except Fault (Option Nat) :=
  match c with
  | some d =>
    if d = '0' then .error .token
    else if d.isDigit then .ok (some (d.toNat - '0'.toNat))
    else .ok none
  | none => .ok none

/-- The two indicators of a header, in either order. -/
def scanIndicators (c : Cursor) : Except Fault (BlockHeader × Cursor) := do
  match chomping? c.peek? with
  | some chomping =>
    let c := c.advance 1
    match ← indentation? c.peek? with
    | some n => return ({ chomping, indentation := some n }, c.advance 1)
    | none => return ({ chomping }, c)
  | none =>
    match ← indentation? c.peek? with
    | some n =>
      let c := c.advance 1
      match chomping? c.peek? with
      | some chomping => return ({ chomping, indentation := some n }, c.advance 1)
      | none => return ({ indentation := some n }, c)
    | none => return ({}, c)

/-- The rest of a line that holds nothing but spaces and a comment, and its end. -/
def skipEmptyLine (c : Cursor) : Except Fault Cursor :=
  let d := c.skipSpaces.skipComment
  if Cursor.endsLine d.peek? then .ok d.skipBreak else .error .token

/-- The header behind the indicator of the style. -/
def scanHeader (c : Cursor) : Except Fault (BlockHeader × Cursor) := do
  let (header, c) ← scanIndicators c
  if Cursor.endsSpaced c.peek? then return (header, ← skipEmptyLine c) else .error .token

/-- The line ends of the lines that hold only spaces, the cursor behind them and the spaces after
them, and the greatest number of spaces in one of the lines. The lines in front of the text are
fewer than `fuel`. -/
def leadingBreaks (fuel most : Nat) (c : Cursor) : List Char × Cursor × Nat :=
  match fuel with
  | 0 => ([], c, most)
  | fuel + 1 =>
    let d := c.skipSpaces
    let most := if c.sees (· == ' ') then max most d.column else most
    match d.breakAt? with
    | some (b, d) =>
      let (bs, e, most) := leadingBreaks fuel most d
      (b :: bs, e, most)
    | none => ([], d, most)

/-- The cursor behind spaces, up to a column. -/
def skipIndentation (column : Int) (c : Cursor) : Cursor :=
  c.advance (min (c.rest.takeWhile (· == ' ')).length (column - c.column).toNat)

/-- The line ends of the lines that hold at most as many spaces as are to be skipped, and the cursor
behind them and the spaces after them. -/
def blankLines (fuel : Nat) (column : Int) (c : Cursor) : List Char × Cursor :=
  match fuel with
  | 0 => ([], c)
  | fuel + 1 =>
    let d := skipIndentation column c
    match d.breakAt? with
    | some (b, d) =>
      let (bs, e) := blankLines fuel column d
      (b :: bs, e)
    | none => ([], d)

/-- Whether the lines of a scalar go on at the cursor. -/
def goesOn (column : Int) (c : Cursor) : Bool :=
  (c.column : Int) == column && c.peek?.isSome

/-- What a line end and the blank lines after it become between two lines. -/
def joint (folded : Bool) (first last : Option Char) (b : List Char) (blanks : List Char) :
    List Char :=
  if folded && b == ['\n'] && !first.any isBlank && !last.any isBlank then
    (if blanks = [] then [' '] else blanks)
  else b ++ blanks

/-- The lines of a scalar: their text, the line end of the last one, the line ends behind it, and
the cursor behind those. -/
def blockLines (fuel : Nat) (folded : Bool) (column : Int) (c : Cursor) :
    List Char × List Char × List Char × Cursor :=
  match fuel with
  | 0 => ([], [], [], c)
  | fuel + 1 =>
    let line := c.rest.takeWhile fun ch => !isBreak ch
    let d := c.skipLine
    let (b, d) : List Char × Cursor :=
      match d.breakAt? with
      | some (b, d) => ([b], d)
      | none => ([], d)
    let (blanks, d) := blankLines (d.rest.length + 1) column d
    if goesOn column d then
      let (text, b', blanks', e) := blockLines fuel folded column d
      (line ++ joint folded c.peek? d.peek? b blanks ++ text, b', blanks', e)
    else (line, b, blanks, d)

/-- The block scalar at the cursor, inside collections with the given indentation. -/
def scanBlock (folded : Bool) (indent : Int) (c : Cursor) : Except Fault (List Char × Cursor) := do
  let (header, c) ← scanHeader (c.advance 1)
  let least := max 1 (indent + 1)
  let (column, blanks, d) : Int × List Char × Cursor :=
    match header.indentation with
    | some n =>
      let column := least + n - 1
      (column, blankLines (c.rest.length + 1) column c)
    | none =>
      let (bs, d, most) := leadingBreaks (c.rest.length + 1) 0 c
      (max least most, bs, d)
  let (text, b, tail, d) :=
    if goesOn column d then
      let (text, b, tail, d) := blockLines (d.rest.length + 1) folded column d
      (blanks ++ text, b, tail, d)
    else ([], [], blanks, d)
  match header.chomping with
  | .strip => return (text, d)
  | .clip => return (text ++ b, d)
  | .keep => return (text ++ b ++ tail, d)

end PerfLedger.Yaml
