import PerfLedger.Yaml.Tag

/-!
# Styles

A string is written plainly if it can be, else between single quotes, and between double quotes if
nothing else does. Only double quotes have escapes, so that they are for all that is not printable
ASCII, and for spaces beside line ends, which are lost elsewhere.
-/

namespace PerfLedger.Yaml

/-- How a string is written. -/
inductive Style where
  | plain
  | single
  | double
  deriving DecidableEq

namespace Style

/-- Printable ASCII. -/
def isPrintable (c : Char) : Bool :=
  ' ' ≤ c && c ≤ '~'

/-- Two characters that stand side by side in a text. -/
def areBeside (a b : Char) : List Char → Bool
  | c :: d :: cs => (c == a && d == b) || areBeside a b (d :: cs)
  | _ => false

/-- A text that needs escapes. -/
def needsEscapes (cs : List Char) : Bool :=
  cs.any (fun c => !(isPrintable c || c == '\n')) || areBeside ' ' '\n' cs || areBeside '\n' ' ' cs

/-- Indicators that no plain scalar begins with. -/
def leadingIndicators : List Char :=
  "#,[]\x7b\x7d&*!|>'\"%@\x60".toList

/-- A text that begins with an indicator or with a mark between documents. Some indicators are ones
only in front of a space or of the end. -/
def beginsIndicator : List Char → Bool
  | [] => false
  | c :: cs =>
    leadingIndicators.contains c ||
      ((c == '-' || c == '?') && cs.head?.all (· == ' ')) ||
      ['-', '-', '-'].isPrefixOf (c :: cs) || ['.', '.', '.'].isPrefixOf (c :: cs)

/-- A colon in front of a space or of the end, or a number sign behind a space. -/
def hasIndicator : List Char → Bool
  | [] => false
  | c :: cs =>
    (c == ':' && cs.head?.all (· == ' ')) || (c == ' ' && cs.head? == some '#') || hasIndicator cs

/-- A text that begins or ends with a space. -/
def hasOuterSpace (cs : List Char) : Bool :=
  cs.head? == some ' ' || cs.getLast? == some ' '

/-- A text of one line that a plain scalar can be, and that is read as a string. -/
def fitsPlain (cs : List Char) : Bool :=
  !(cs.contains '\n' || hasOuterSpace cs || beginsIndicator cs || hasIndicator cs) &&
    Tag.ofPlain cs == Tag.str

/-- The style of a string. -/
def ofText (cs : List Char) : Style :=
  if needsEscapes cs then .double
  else if fitsPlain cs then .plain
  else .single

end Style

end PerfLedger.Yaml
