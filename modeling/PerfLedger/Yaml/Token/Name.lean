import PerfLedger.Json.Text
import PerfLedger.Yaml.Fault
import PerfLedger.Yaml.Token
import PerfLedger.Yaml.Token.Block

/-!
# Names

The tokens that hold names: directives at the start of a document, and anchors, aliases and tags in
front of nodes. A tag is a handle and a suffix, or stands verbatim between angle brackets; bytes of
its suffix may be escaped by a percent sign and two hexadecimal digits.
-/

namespace PerfLedger.Yaml

/-- A character of a name. -/
def isNameChar (c : Char) : Bool :=
  c.isAlphanum || c == '-' || c == '_'

/-- A character of a tag, other than the percent sign of an escape. -/
def isTagChar (c : Char) : Bool :=
  c.isAlphanum || "-;/?:@&=+$,_.!~*'()[]".toList.contains c

/-- A name at the cursor, and the cursor behind it. -/
def scanName (c : Cursor) : Except Fault (String × Cursor) :=
  let name := c.rest.takeWhile isNameChar
  if name = [] then .error .token else .ok (String.ofList name, c.advance name.length)

/-! ## Anchors and aliases -/

/-- What may follow an anchor. -/
def endsAnchor (next : Option Char) : Bool :=
  Cursor.endsWord next || next.any fun c => "?:,]\x7d%@\x60".toList.contains c

/-- The name of an anchor or alias, where the cursor is at its indicator. -/
def scanAnchor (c : Cursor) : Except Fault (String × Cursor) := do
  let (name, d) ← scanName (c.advance 1)
  if endsAnchor d.peek? then return (name, d) else .error .token

/-! ## Tags -/

/-- The bytes of a row of escapes, and the text behind it. -/
def readEscapes : List Char → Except Fault (List UInt8 × List Char)
  | '%' :: a :: b :: cs =>
    match Json.hexValue? a, Json.hexValue? b with
    | some x, some y =>
      match readEscapes cs with
      | .ok (bs, rest) => .ok (UInt8.ofNat (x * 16 + y) :: bs, rest)
      | .error f => .error f
    | _, _ => .error .token
  | '%' :: _ => .error .token
  | cs => .ok ([], cs)

/-- The text of a tag, and the text behind it. The characters that are read are fewer than
`fuel`. -/
def readTagText (fuel : Nat) (cs : List Char) : Except Fault (List Char × List Char) :=
  match fuel with
  | 0 => .ok ([], cs)
  | fuel + 1 =>
    match cs with
    | [] => .ok ([], [])
    | c :: rest =>
      if c = '%' then do
        let (bs, rest) ← readEscapes cs
        match Text.decodeUtf8 bs with
        | .error _ => .error .token
        | .ok text => do
          let (more, rest) ← readTagText fuel rest
          return (text ++ more, rest)
      else if isTagChar c then do
        let (more, rest) ← readTagText fuel rest
        return (c :: more, rest)
      else .ok ([], cs)

/-- The text of a tag at the cursor, which is not empty, and the cursor behind it. -/
def scanTagText (c : Cursor) : Except Fault (String × Cursor) := do
  let (text, rest) ← readTagText (c.rest.length + 1) c.rest
  if rest.length = c.rest.length then .error .token
  else return (String.ofList text, c.advance (c.rest.length - rest.length))

/-- A handle at the cursor: an exclamation mark, or a name between two, and the cursor behind it. -/
def scanHandle (c : Cursor) : Except Fault (String × Cursor) :=
  match c.rest with
  | '!' :: rest =>
    if rest.head? = some ' ' then .ok ("!", c.advance 1)
    else
      let name := rest.takeWhile isNameChar
      if (rest.drop name.length).head? = some '!' then
        .ok (String.ofList ('!' :: name ++ ['!']), c.advance (name.length + 2))
      else .error .token
  | _ => .error .token

/-- The handle and the suffix of a tag, where the cursor is at its exclamation mark. -/
def scanTagParts (c : Cursor) : Except Fault (Option String × String × Cursor) := do
  let next := c.peekAt? 1
  if next = some '<' then
    let (suffix, d) ← scanTagText (c.advance 2)
    if d.peek? = some '>' then return (none, suffix, d.advance 1) else .error .token
  else if Cursor.endsWord next then return (none, "!", c.advance 1)
  else
    let word := (c.rest.drop 1).takeWhile fun ch => !(ch == ' ' || isBreak ch)
    if word.contains '!' then
      let (handle, d) ← scanHandle c
      let (suffix, d) ← scanTagText d
      return (some handle, suffix, d)
    else
      let (suffix, d) ← scanTagText (c.advance 1)
      return (some "!", suffix, d)

/-- The tag at the cursor. -/
def scanTag (c : Cursor) : Except Fault (Token × Cursor) := do
  let (handle, suffix, d) ← scanTagParts c
  if Cursor.endsSpaced d.peek? then return (.tag handle suffix, d) else .error .token

/-! ## Directives -/

/-- A number at the cursor, and the cursor behind it. -/
def scanNumber (c : Cursor) : Except Fault (Nat × Cursor) :=
  let ds := c.rest.takeWhile Char.isDigit
  if ds = [] then .error .token else .ok (Text.digitsValue ds, c.advance ds.length)

/-- The version of a document: two numbers with a point between them. -/
def scanVersion (c : Cursor) : Except Fault (Token × Cursor) := do
  let (major, d) ← scanNumber c.skipSpaces
  if d.peek? = some '.' then
    let (_, d) ← scanNumber (d.advance 1)
    if Cursor.endsSpaced d.peek? then return (.versionDirective major, d) else .error .token
  else .error .token

/-- The declaration of a handle. -/
def scanHandleDeclaration (c : Cursor) : Except Fault (Token × Cursor) := do
  let (handle, d) ← scanHandle c.skipSpaces
  if d.peek? = some ' ' then
    let (start, d) ← scanTagText d.skipSpaces
    if Cursor.endsSpaced d.peek? then return (.tagDirective handle start, d) else .error .token
  else .error .token

/-- The directive at the cursor, and the cursor behind its line. -/
def scanDirective (c : Cursor) : Except Fault (Token × Cursor) := do
  let (name, d) ← scanName (c.advance 1)
  if Cursor.endsSpaced d.peek? then
    let (token, d) ←
      if name = "YAML" then scanVersion d
      else if name = "TAG" then scanHandleDeclaration d
      else pure (.otherDirective, d.skipLine)
    return (token, ← skipEmptyLine d)
  else .error .token

end PerfLedger.Yaml
