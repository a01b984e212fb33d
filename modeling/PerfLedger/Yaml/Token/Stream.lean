import PerfLedger.Yaml.Token.Name
import PerfLedger.Yaml.Token.Quoted

/-!
# The stream of tokens

The lexer reads one token after the other and turns changes of indentation into tokens. That a node
is a key is seen only at the colon behind it: until then it is a *candidate*, and the token of the
key, and that of the mapping which it may begin, are inserted in front of it afterwards. A candidate
is given up at the end of its line, or after 1024 characters.

A reader of the stream sees a token only when no candidate is left that begins there. So a text with
a fault shows the tokens up to the fault, or up to the earliest candidate.
-/

namespace PerfLedger.Yaml

/-- A node that may turn out to be a key: the number of its first token, whether it has to be a key,
and the place where it begins. -/
structure Candidate where
  token : Nat
  required : Bool
  index : Nat
  line : Nat
  column : Nat

/-- The state of reading: the cursor, the tokens so far, how many flow collections are open, the
indentation of the innermost block collection and of those around it, whether a key may begin here,
and the candidate of each level of flow collections. -/
structure Lexer where
  cursor : Cursor
  tokens : List Token := [.streamStart]
  flow : Int := 0
  indent : Int := -1
  outer : List Int := []
  keyAllowed : Bool := true
  candidates : List (Int × Candidate) := []
  done : Bool := false

namespace Lexer

/-- The lexer at the start of a text. -/
def new (cs : List Char) : Lexer where
  cursor := { rest := cs }

/-- The lexer is inside flow collections. -/
def inFlow (l : Lexer) : Bool :=
  l.flow != 0

/-- The lexer with one more token. -/
def push (l : Lexer) (t : Token) : Lexer :=
  { l with tokens := l.tokens ++ [t] }

/-- The column of the cursor. -/
def column (l : Lexer) : Int :=
  l.cursor.column

/-- The lexer with the cursor some characters on. -/
def skip (l : Lexer) (n : Nat) : Lexer :=
  { l with cursor := l.cursor.advance n }

/-! ## Candidates -/

/-- A candidate from another line, or from too far back. -/
def isStale (c : Cursor) (k : Candidate) : Bool :=
  k.line != c.line || decide (1024 < (c.index : Int) - k.index)

/-- The lexer without stale candidates, none of which may be required. -/
def dropStale (l : Lexer) : Except Fault Lexer :=
  if l.candidates.any fun e => isStale l.cursor e.2 && e.2.required then .error .token
  else .ok { l with candidates := l.candidates.filter fun e => !isStale l.cursor e.2 }

/-- The candidate of the current level. -/
def candidate? (l : Lexer) : Option Candidate :=
  (l.candidates.find? fun e => e.1 == l.flow).map (·.2)

/-- The lexer without a candidate of the current level. -/
def forget (l : Lexer) : Lexer :=
  { l with candidates := l.candidates.filter fun e => e.1 != l.flow }

/-- Gives up the candidate of the current level, which may not be required. -/
def dropCandidate (l : Lexer) : Except Fault Lexer :=
  match l.candidate? with
  | some k => if k.required then .error .token else .ok l.forget
  | none => .ok l

/-- Makes the next token a candidate, if a key may begin here. It has to be a key if it stands at
the indentation of the block collection. -/
def addCandidate (l : Lexer) : Except Fault Lexer :=
  if l.keyAllowed then do
    let l ← l.dropCandidate
    let k : Candidate :=
      { token := l.tokens.length, required := !l.inFlow && l.indent == l.column
        index := l.cursor.index, line := l.cursor.line, column := l.cursor.column }
    return { l with candidates := (l.flow, k) :: l.candidates }
  else .ok l

/-- The number of the first token that is not sure. -/
def settled (l : Lexer) : Nat :=
  (l.candidates.map (·.2.token)).foldl min l.tokens.length

/-! ## Indentation -/

/-- Ends the block collections that are indented more than a column. -/
def unwindTo (column : Int) (l : Lexer) : List Int → Lexer
  | [] => l
  | i :: is =>
    if column < l.indent then unwindTo column { l.push .blockEnd with indent := i, outer := is } is
    else l

/-- Ends the block collections that are indented more than a column; there are none inside flow
collections. -/
def unwind (l : Lexer) (column : Int) : Lexer :=
  if l.inFlow then l else unwindTo column l l.outer

/-- Begins a block collection at a column, if it is indented more than the innermost one. -/
def indentTo (l : Lexer) (column : Int) : Bool × Lexer :=
  if l.indent < column then (true, { l with indent := column, outer := l.indent :: l.outer })
  else (false, l)

/-- Begins a block collection at the cursor with a token, if there is none yet. -/
def openBlock (l : Lexer) (t : Token) : Lexer :=
  match l.indentTo l.column with
  | (true, l) => l.push t
  | (false, l) => l

/-! ## Tokens -/

/-- Leaves blanks, comments and line ends behind. Outside flow collections a key may begin on a new
line. -/
def skipToToken (fuel : Nat) (l : Lexer) : Lexer :=
  match fuel with
  | 0 => l
  | fuel + 1 =>
    let c := l.cursor.skipSpaces.skipComment
    match c.breakAt? with
    | some (_, d) =>
      skipToToken fuel { l with cursor := d, keyAllowed := l.keyAllowed || !l.inFlow }
    | none => { l with cursor := c }

/-- Ends all block collections in front of a mark or directive. -/
def endBlocks (l : Lexer) : Except Fault Lexer := do
  let l ← (l.unwind (-1)).dropCandidate
  return { l with keyAllowed := false }

/-- The end of the text. -/
def readEnd (l : Lexer) : Except Fault Lexer := do
  let l ← l.endBlocks
  return { l.push .streamEnd with candidates := [], done := true }

/-- A directive. -/
def readDirective (l : Lexer) : Except Fault Lexer := do
  let l ← l.endBlocks
  let (t, c) ← scanDirective l.cursor
  return { l.push t with cursor := c }

/-- A mark between documents. -/
def readMark (t : Token) (l : Lexer) : Except Fault Lexer := do
  let l ← l.endBlocks
  return (l.push t).skip 3

/-- The start of a flow collection. -/
def readFlowStart (t : Token) (l : Lexer) : Except Fault Lexer := do
  let l ← l.addCandidate
  return { (l.push t).skip 1 with flow := l.flow + 1, keyAllowed := true }

/-- The end of a flow collection. -/
def readFlowEnd (t : Token) (l : Lexer) : Except Fault Lexer := do
  let l ← l.dropCandidate
  return { (l.push t).skip 1 with flow := l.flow - 1, keyAllowed := false }

/-- A comma of a flow collection. -/
def readFlowEntry (l : Lexer) : Except Fault Lexer := do
  let l ← l.dropCandidate
  return { (l.push .flowEntry).skip 1 with keyAllowed := true }

/-- The hyphen of an entry, which may begin a block sequence. -/
def readBlockEntry (l : Lexer) : Except Fault Lexer := do
  if !l.inFlow && !l.keyAllowed then .error .token
  else
    let l := if l.inFlow then l else l.openBlock .blockSequenceStart
    let l ← l.dropCandidate
    return { (l.push .blockEntry).skip 1 with keyAllowed := true }

/-- The question mark of a key, which may begin a block mapping. -/
def readKey (l : Lexer) : Except Fault Lexer := do
  if !l.inFlow && !l.keyAllowed then .error .token
  else
    let l := if l.inFlow then l else l.openBlock .blockMappingStart
    let l ← l.dropCandidate
    return { (l.push .key).skip 1 with keyAllowed := !l.inFlow }

/-- The tokens that make a candidate a key, inserted in front of it. -/
def settle (l : Lexer) (k : Candidate) : Lexer :=
  let l := l.forget
  let (begins, l) := if l.inFlow then (false, l) else l.indentTo k.column
  let inserted := if begins then [.blockMappingStart, .key] else [.key]
  { l with tokens := l.tokens.take k.token ++ inserted ++ l.tokens.drop k.token }

/-- The colon of a value, which makes a key of the candidate. Without one it may begin a block
mapping. -/
def readValue (l : Lexer) : Except Fault Lexer :=
  match l.candidate? with
  | some k => .ok { ((l.settle k).push .value).skip 1 with keyAllowed := false }
  | none => do
    if !l.inFlow && !l.keyAllowed then .error .token
    else
      let l := if l.inFlow then l else l.openBlock .blockMappingStart
      let l ← l.dropCandidate
      return { (l.push .value).skip 1 with keyAllowed := !l.inFlow }

/-- A token that may begin a key, and behind which none may begin. -/
def readNode (scan : Cursor → Except Fault (Token × Cursor)) (l : Lexer) : Except Fault Lexer := do
  let l ← l.addCandidate
  let (t, c) ← scan l.cursor
  return { l.push t with cursor := c, keyAllowed := false }

/-- A block scalar. -/
def readBlock (folded : Bool) (l : Lexer) : Except Fault Lexer := do
  let l ← l.dropCandidate
  let (text, c) ← scanBlock folded l.indent l.cursor
  return { l.push (.scalar false (some text)) with cursor := c, keyAllowed := true }

/-- A plain scalar. A key may begin behind it if it ends at the start of a line. -/
def readPlain (l : Lexer) : Except Fault Lexer := do
  let l ← l.addCandidate
  let p := scanPlain l.inFlow (l.indent + 1) l.cursor
  return { l.push (.scalar true (some p.text)) with cursor := p.after, keyAllowed := p.crossed }

/-- Characters that begin a plain scalar only in front of something else than a blank, or never. -/
def indicators : List Char :=
  "-?:,[]\x7b\x7d#&*!|>'\"%@\x60".toList

/-- Whether a plain scalar begins at a character, given the next one. -/
def beginsPlain (inFlow : Bool) (c : Char) (next : Option Char) : Bool :=
  !(isBlank c || isBreak c || indicators.contains c) ||
    (!Cursor.endsWord next && (c == '-' || (!inFlow && (c == '?' || c == ':'))))

/-- The token at the cursor, which begins with a character. -/
def readToken (l : Lexer) (ch : Char) : Except Fault Lexer :=
  let c := l.cursor
  let next := c.peekAt? 1
  let atStart := c.column == 0
  let ends := Cursor.endsWord next
  if ch = '%' ∧ atStart then l.readDirective
  else if ch = '-' ∧ atStart ∧ c.seesDocumentMark then l.readMark .documentStart
  else if ch = '.' ∧ atStart ∧ c.seesDocumentMark then l.readMark .documentEnd
  else if ch = '[' then l.readFlowStart .flowSequenceStart
  else if ch = '\x7b' then l.readFlowStart .flowMappingStart
  else if ch = ']' then l.readFlowEnd .flowSequenceEnd
  else if ch = '\x7d' then l.readFlowEnd .flowMappingEnd
  else if ch = ',' then l.readFlowEntry
  else if ch = '-' ∧ ends then l.readBlockEntry
  else if ch = '?' ∧ (l.inFlow ∨ ends) then l.readKey
  else if ch = ':' ∧ (l.inFlow ∨ ends) then l.readValue
  else if ch = '*' then
    l.readNode fun c => (scanAnchor c).map fun (name, d) => (.alias name, d)
  else if ch = '&' then
    l.readNode fun c => (scanAnchor c).map fun (name, d) => (.anchor name, d)
  else if ch = '!' then l.readNode scanTag
  else if ch = '|' ∧ !l.inFlow then l.readBlock false
  else if ch = '>' ∧ !l.inFlow then l.readBlock true
  else if ch = '\'' then
    l.readNode fun c => (scanQuoted false c).map fun (text, d) => (.scalar false text, d)
  else if ch = '"' then
    l.readNode fun c => (scanQuoted true c).map fun (text, d) => (.scalar false text, d)
  else if beginsPlain l.inFlow ch next then l.readPlain
  else .error .token

/-- The lexer behind the next token. -/
def next (l : Lexer) : Except Fault Lexer := do
  let l ← (l.skipToToken (l.cursor.rest.length + 1)).dropStale
  let l := l.unwind l.column
  match l.cursor.peek? with
  | none => l.readEnd
  | some ch => l.readToken ch

end Lexer

/-- The tokens of a text that can be seen, and the fault behind them if they are not all. -/
structure TokenStream where
  tokens : List Token
  fault : Option Fault := none

/-- Reads tokens up to the end or a fault. `seen` is how many tokens could be seen before. Each
token but the last takes a character, so the tokens are at most as many as `fuel`. -/
def readTokens (fuel seen : Nat) (l : Lexer) : TokenStream :=
  if l.done then { tokens := l.tokens }
  else
    match l.dropStale with
    | .error f => { tokens := l.tokens.take seen, fault := some f }
    | .ok l =>
      let seen := max seen l.settled
      match fuel with
      | 0 => { tokens := l.tokens.take seen, fault := some .token }
      | fuel + 1 =>
        match l.next with
        | .error f => { tokens := l.tokens.take seen, fault := some f }
        | .ok next => readTokens fuel seen next

/-- The tokens of a text. A byte order mark at its start is left out. -/
def tokenStream (cs : List Char) : TokenStream :=
  let l := Lexer.new cs
  let l := if l.cursor.peek? = some '\uFEFF' then l.skip 1 else l
  readTokens (cs.length + 2) 1 l

end PerfLedger.Yaml
