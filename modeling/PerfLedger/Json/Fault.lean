import PerfLedger.Text.Utf8

/-!
# JSON faults

A text that is no JSON is refused at a place in it, which is known by the text from there on. In a
message the place is given by line and column, counted in bytes; a line end that is itself at fault
stands at column zero of the next line.
-/

namespace PerfLedger.Json

/-- What is wrong with a text. -/
inductive Problem where
  | endInList
  | endInObject
  | endInString
  | endInValue
  | expectedColon
  | expectedListEnd
  | expectedObjectEnd
  | expectedWord
  | expectedValue
  | invalidEscape
  | invalidNumber
  | numberTooLong
  | controlCharacter
  | keyNotText
  | loneSurrogate
  | hexEscapeEnd
  | trailingComma
  | trailingCharacters
  | tooDeep
  deriving DecidableEq

/-- What is reported of a problem. -/
def Problem.text : Problem → String
  | .endInList => "EOF while parsing a list"
  | .endInObject => "EOF while parsing an object"
  | .endInString => "EOF while parsing a string"
  | .endInValue => "EOF while parsing a value"
  | .expectedColon => "expected \x60:\x60"
  | .expectedListEnd => "expected \x60,\x60 or \x60]\x60"
  | .expectedObjectEnd => "expected \x60,\x60 or \x60\x7d\x60"
  | .expectedWord => "expected ident"
  | .expectedValue => "expected value"
  | .invalidEscape => "invalid escape"
  | .invalidNumber => "invalid number"
  | .numberTooLong => "number out of range"
  | .controlCharacter =>
    "control character (\\u0000-\\u001F) found while parsing a string"
  | .keyNotText => "key must be a string"
  | .loneSurrogate => "lone leading surrogate in hex escape"
  | .hexEscapeEnd => "unexpected end of hex escape"
  | .trailingComma => "trailing comma"
  | .trailingCharacters => "trailing characters"
  | .tooDeep => "recursion limit exceeded"

/-- A problem, and the text from the place on where it is. -/
structure Fault where
  problem : Problem
  rest : List Char
  deriving DecidableEq

/-- The characters behind the last line end. -/
def lastLine (cs : List Char) : List Char :=
  (cs.reverse.takeWhile (· != '\n')).reverse

/-- The line and the column of the place where a text goes on with `rest`. -/
def position (text rest : List Char) : Nat × Nat :=
  let before := text.take (text.length - rest.length)
  let line := 1 + before.count '\n'
  let column := (Text.encodeUtf8 (lastLine before)).length
  match rest with
  | [] => (line, column)
  | c :: _ => if c = '\n' then (line + 1, 0) else (line, column + 1)

/-- What is reported of a fault in a text. -/
def Fault.message (text : String) (f : Fault) : String :=
  let (line, column) := position text.toList f.rest
  f.problem.text ++ " at line " ++ toString line ++ " column " ++ toString column

end PerfLedger.Json
