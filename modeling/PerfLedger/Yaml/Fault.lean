import PerfLedger.Value.Basic
import PerfLedger.Value.Integer

/-!
# YAML faults

What can be wrong with a document. The faults of form are told apart only by the step that finds
them: the characters, the tokens, the structure, the references between nodes, the tags. The text of
a scalar that does not have the form of its tag is reported in words.
-/

namespace PerfLedger.Yaml

/-- What is wrong with a document. -/
inductive Fault where
  /-- A character that no document holds. -/
  | character
  /-- No token can be read. -/
  | token
  /-- The tokens do not form a document. -/
  | grammar
  /-- An alias without an anchor, an anchor that is there twice, or a second document. -/
  | reference
  /-- A node that no value can be made of. -/
  | tag
  /-- An escape names a number beyond the last character. -/
  | codePoint
  /-- An escape names a number beyond 31 bits. -/
  | codePointSize
  | integer (f : Integer.Fault)
  | number (text : String)
  | truth (text : String)
  /-- There is nothing where a number should be. -/
  | emptyNumber
  /-- The text is no date. -/
  | dateForm
  /-- The date is no scalar. -/
  | dateKind
  | year (y : Nat)
  | month
  | day
  | hour
  | minute
  | second
  | offset (seconds : Int)
  deriving DecidableEq

/-- What is reported in words. -/
def Fault.message : Fault → String
  | .character | .token | .grammar | .reference | .tag => ""
  | .codePoint => "chr() arg not in range(0x110000)"
  | .codePointSize => "Python int too large to convert to C int"
  | .integer f => f.message
  | .number t => "could not convert string to float: " ++ Text.quoted t
  | .truth t => Text.quoted t
  | .emptyNumber => "string index out of range"
  | .dateForm => "'NoneType' object has no attribute 'groupdict'"
  | .dateKind => "expected string or bytes-like object, got 'list'"
  | .year y => "year " ++ toString y ++ " is out of range"
  | .month => "month must be in 1..12"
  | .day => "day is out of range for month"
  | .hour => "hour must be in 0..23"
  | .minute => "minute must be in 0..59"
  | .second => "second must be in 0..59"
  | .offset s =>
    "offset must be a timedelta strictly between -timedelta(hours=24) and " ++
      "timedelta(hours=24), not " ++ Value.spanText s ++ "."

end PerfLedger.Yaml
