/-!
# Tokens

The tokens of a document: marks of documents and directives, starts and ends of collections,
indicators of entries, keys and values, properties of nodes, and scalars. Starts and ends of block
collections stand for changes of indentation.
-/

namespace PerfLedger.Yaml

/-- A token. -/
inductive Token where
  | streamStart
  | streamEnd
  | versionDirective (major : Nat)
  | tagDirective (handle start : String)
  | otherDirective
  | documentStart
  | documentEnd
  | blockSequenceStart
  | blockMappingStart
  | blockEnd
  | flowSequenceStart
  | flowSequenceEnd
  | flowMappingStart
  | flowMappingEnd
  | flowEntry
  | blockEntry
  | key
  | value
  | alias (name : String)
  | anchor (name : String)
  /-- A tag; without a handle it is the whole tag. -/
  | tag (handle : Option String) (suffix : String)
  /-- A scalar, plain or not. It has no text if half a surrogate pair is among its characters. -/
  | scalar (plain : Bool) (text : Option (List Char))
  deriving DecidableEq, Inhabited

end PerfLedger.Yaml
