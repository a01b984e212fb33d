import PerfLedger.Yaml.Style
import PerfLedger.Yaml.Token.Quoted

/-!
# Printing

A document with one entry, whose value is a string. Lines that are too long are broken: plain
scalars and those in single quotes at a space that stands alone, those in double quotes in front of
a space or behind an escape. Lines after the first are indented.

What is printed is pure ASCII.
-/

namespace PerfLedger.Yaml

namespace Printer

/-- How many columns a line has before it is broken. -/
def lineWidth : Nat := 80

/-- The indentation of the lines after the first. -/
def margin : List Char := [' ', ' ']

/-- The column behind the indentation. -/
def marginWidth : Nat := margin.length

/-- A line end and the indentation of the next line. -/
def lineBreak : List Char := '\n' :: margin

/-- Whether a line is broken at a space: it is full, and no space stands beside this one, nor an end
of the text. -/
def breaksAt (before : Option Char) (column : Nat) (after : Option Char) : Bool :=
  decide (lineWidth < column) && before.any (· != ' ') && after.any (· != ' ')

/-! ## Plain scalars -/

/-- A plain scalar from a column on, behind a character. -/
def plainFrom (before : Option Char) (column : Nat) : List Char → List Char
  | [] => []
  | c :: cs =>
    if c = ' ' ∧ breaksAt before column cs.head? then
      lineBreak ++ plainFrom (some c) marginWidth cs
    else c :: plainFrom (some c) (column + 1) cs

/-! ## Single quotes -/

/-- Line ends for one in a text: the first of a row is doubled, and the last is followed by the
indentation of the next line. -/
def singleBreak (before after : Option Char) : List Char :=
  (if before = some '\n' then ['\n'] else ['\n', '\n']) ++
    (if after = some '\n' then [] else margin)

/-- The text between single quotes, in which single quotes are doubled. -/
def singleFrom (before : Option Char) (column : Nat) : List Char → List Char
  | [] => []
  | c :: cs =>
    if c = ' ' ∧ breaksAt before column cs.head? then
      lineBreak ++ singleFrom (some c) marginWidth cs
    else if c = '\n' then
      singleBreak before cs.head? ++ singleFrom (some c) marginWidth cs
    else if c = '\'' then '\'' :: '\'' :: singleFrom (some c) (column + 2) cs
    else c :: singleFrom (some c) (column + 1) cs

/-! ## Double quotes -/

/-- A character that stands for itself between double quotes. -/
def isLiteral (c : Char) : Bool :=
  Style.isPrintable c && c != '"' && c != '\\'

/-- Hexadecimal digits in upper case. -/
def hexDigits (width n : Nat) : List Char :=
  (Text.hexDigits width n).map Char.toUpper

/-- The escape of a character: by its name if it has one, else by its number. -/
def escape (c : Char) : List Char :=
  match escapes.find? fun e => e.2 == c with
  | some e => ['\\', e.1]
  | none =>
    let n := c.toNat
    if n < 0x100 then '\\' :: 'x' :: hexDigits 2 n
    else if n < 0x10000 then '\\' :: 'u' :: hexDigits 4 n
    else '\\' :: 'U' :: hexDigits 8 n

/-- An escaped line end. A space behind it is escaped, too. -/
def escapedBreak (after : Option Char) : List Char :=
  '\\' :: lineBreak ++ (if after = some ' ' then ['\\'] else [])

/-- The column behind an escaped line end. -/
def columnAfterBreak (after : Option Char) : Nat :=
  if after = some ' ' then marginWidth + 1 else marginWidth

/-- The text between double quotes. A line that is full is broken in front of a space, and of a
character behind an escape; behind an escape it is broken if it is full without its last column. The
last character breaks no line. -/
def doubleFrom (escaped : Bool) (column : Nat) : List Char → List Char
  | [] => []
  | c :: cs =>
    if isLiteral c then
      if lineWidth < column ∧ (c = ' ' ∨ escaped) ∧ cs ≠ [] then
        escapedBreak (some c) ++ c :: doubleFrom false (columnAfterBreak (some c) + 1) cs
      else c :: doubleFrom false (column + 1) cs
    else
      let text := escape c
      if lineWidth + 1 < column + text.length ∧ cs ≠ [] then
        text ++ escapedBreak cs.head? ++ doubleFrom true (columnAfterBreak cs.head?) cs
      else text ++ doubleFrom true (column + text.length) cs

/-! ## Documents -/

/-- A string from a column on. -/
def string (column : Nat) (cs : List Char) : List Char :=
  match Style.ofText cs with
  | .plain => plainFrom none column cs
  | .single => '\'' :: singleFrom none (column + 1) cs ++ ['\'']
  | .double => '"' :: doubleFrom false (column + 1) cs ++ ['"']

/-- A document of one entry, the key of which is a plain word. -/
def entry (key text : List Char) : List Char :=
  key ++ ':' :: ' ' :: string (key.length + 2) text ++ ['\n']

end Printer

end PerfLedger.Yaml
