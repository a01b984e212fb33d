import PerfLedger.Json.Text
import PerfLedger.Yaml.Stamp

/-!
# Tags

The tag of a node says what kind of value it stands for. A plain scalar without a tag gets one from
the form of its text: nothing and the words for it, truth values, integers in four bases and in
sixties, decimal fractions, dates, and two indicators. Any other text is a string.
-/

namespace PerfLedger.Yaml

namespace Tag

/-- What the tags of the standard kinds begin with. -/
def standard : String := "tag:yaml.org,2002:"

def null : String := standard ++ "null"
def bool : String := standard ++ "bool"
def int : String := standard ++ "int"
def float : String := standard ++ "float"
def binary : String := standard ++ "binary"
def timestamp : String := standard ++ "timestamp"
def omap : String := standard ++ "omap"
def pairs : String := standard ++ "pairs"
def set : String := standard ++ "set"
def str : String := standard ++ "str"
def seq : String := standard ++ "seq"
def map : String := standard ++ "map"
def merge : String := standard ++ "merge"
def value : String := standard ++ "value"
def yaml : String := standard ++ "yaml"

/-! ## Forms of plain scalars -/

/-- The words for nothing; the empty text is one. -/
def nullWords : List String := ["", "~", "null", "Null", "NULL"]

/-- The words for truth values. -/
def boolWords : List String :=
  ["yes", "Yes", "YES", "no", "No", "NO", "true", "True", "TRUE", "false", "False", "FALSE",
    "on", "On", "ON", "off", "Off", "OFF"]

/-- A text without its sign. -/
def unsigned : List Char → List Char
  | '-' :: cs => cs
  | '+' :: cs => cs
  | cs => cs

/-- A digit or an underscore. -/
def isDigitOrLine (c : Char) : Bool :=
  c.isDigit || c == '_'

/-- A row of at least one character for which a test holds. -/
def isRow (test : Char → Bool) (cs : List Char) : Bool :=
  cs != [] && cs.all test

/-- A number below sixty, with one or two digits. -/
def isSixtieth : List Char → Bool
  | [a] => a.isDigit
  | [a, b] => '0' ≤ a && a ≤ '5' && b.isDigit
  | _ => false

/-- Numbers below sixty behind colons, at least one. -/
def areSixtieths (parts : List (List Char)) : Bool :=
  parts != [] && parts.all isSixtieth

/-- The parts of a text between colons. -/
def colonParts (cs : List Char) : List (List Char) :=
  cs.splitOn ':'

/-- The digits of an integer with underscores, without a leading zero. -/
def isPlainInt : List Char → Bool
  | [] => false
  | c :: cs => '1' ≤ c && c ≤ '9' && cs.all isDigitOrLine

/-- An integer: binary, octal, decimal, hexadecimal or in sixties. -/
def isInt (cs : List Char) : Bool :=
  match unsigned cs with
  | ['0'] => true
  | '0' :: 'b' :: ds => isRow (fun c => c == '0' || c == '1' || c == '_') ds
  | '0' :: 'x' :: ds => isRow (fun c => (Json.hexValue? c).isSome || c == '_') ds
  | '0' :: ds => isRow (fun c => ('0' ≤ c && c ≤ '7') || c == '_') ds
  | ds =>
    match colonParts ds with
    | [] => false
    | first :: others => isPlainInt first && (others == [] || areSixtieths others)

/-- Digits with underscores, the first of them a digit. -/
def isDigitRow : List Char → Bool
  | [] => false
  | c :: cs => c.isDigit && cs.all isDigitOrLine

/-- The exponent of a fraction, which has a sign, or nothing. -/
def isExponent : List Char → Bool
  | [] => true
  | e :: s :: ds => (e == 'e' || e == 'E') && (s == '-' || s == '+') && isRow Char.isDigit ds
  | _ => false

/-- A decimal fraction, one in sixties, or the name of an infinity or of the not-a-number. -/
def isFloat (cs : List Char) : Bool :=
  let ds := unsigned cs
  let whole := ds.takeWhile (· != '.')
  match ds.drop whole.length with
  | '.' :: rest =>
    let digits := rest.takeWhile isDigitOrLine
    let exponent := rest.drop digits.length
    if whole = [] then
      [".inf", ".Inf", ".INF"].contains (String.ofList ds) ||
        (ds == cs && ([".nan", ".NaN", ".NAN"].contains (String.ofList ds) ||
          (isDigitRow digits && isExponent exponent)))
    else
      (isDigitRow whole && isExponent exponent) ||
        (match colonParts whole with
          | first :: others => isDigitRow first && areSixtieths others && exponent == []
          | [] => false)
  | _ => false

/-- A text without a line end as its last character. -/
def dropFinalBreak (cs : List Char) : List Char :=
  if cs.getLast? = some '\n' then cs.dropLast else cs

/-- The tag of a plain scalar. A single line end behind the text does not count, except behind a
text that is otherwise empty. -/
def ofPlain (cs : List Char) : String :=
  let ds := if cs = ['\n'] then cs else dropFinalBreak cs
  let word := String.ofList ds
  if nullWords.contains word then null
  else if boolWords.contains word then bool
  else if isFloat ds then float
  else if isInt ds then int
  else if ds = ['<', '<'] then merge
  else if (Stamp.read? ds).any Stamp.isImplicit then timestamp
  else if ds = ['='] then value
  else if ds = ['!'] ∨ ds = ['&'] ∨ ds = ['*'] then yaml
  else str

end Tag

end PerfLedger.Yaml
