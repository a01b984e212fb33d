import PerfLedger.Yaml.Node
import PerfLedger.Yaml.Tag
import PerfLedger.Yaml.Token.Stream

/-!
# Reading nodes

The nodes of a document are read from its tokens, and are numbered in the order in which they begin.
The tokens are read from left to right, and a fault in them is met only when a token behind it is
needed, so that of several faults the first one is found.
-/

namespace PerfLedger.Yaml

/-- What is known between two steps of reading: the tokens to come and the fault behind them, what
handles of tags stand for, the nodes so far, and the nodes with anchors. -/
structure NodeReader where
  tokens : List Token
  fault : Option Fault := none
  handles : List (String × String) := []
  nodes : Nodes := #[]
  anchors : List (String × Nat) := []

/-- A step of reading. -/
abbrev ReadNodes (α : Type) := StateT NodeReader (Except Fault) α

namespace ReadNodes

/-- The handles that need no declaration. -/
def defaultHandles : List (String × String) := [("!", "!"), ("!!", Tag.standard)]

/-- The next token. -/
def peek : ReadNodes Token := do
  match (← get).tokens with
  | t :: _ => return t
  | [] => throw ((← get).fault.getD .grammar)

/-- Leaves the next token behind. -/
def drop : ReadNodes Unit :=
  modify fun c => { c with tokens := c.tokens.drop 1 }

/-- Leaves a token behind if it is the next one. -/
def accept (t : Token) : ReadNodes Bool := do
  if (← peek) = t then
    drop
    return true
  else return false

/-- Whether the next token is one of some tokens. -/
def seesAny (ts : List Token) : ReadNodes Bool := do
  return ts.contains (← peek)

/-- A new node. -/
def add (n : Node) : ReadNodes Nat := do
  let c ← get
  set { c with nodes := c.nodes.push n }
  return c.nodes.size

/-- Fills a node that was begun. -/
def fill (id : Nat) (content : Content) : ReadNodes Unit :=
  modify fun c => { c with nodes := c.nodes.replace id { c.nodes.node id with content } }

/-- An empty plain scalar. -/
def addEmpty : ReadNodes Nat :=
  add { tag := Tag.ofPlain [], content := .scalar (some []) }

/-- The properties in front of a node: its anchor and its tag. -/
structure Properties where
  anchor : Option String := none
  tag : Option String := none

/-- An anchor, if it is the next token. -/
def anchor? : ReadNodes (Option String) := do
  match ← peek with
  | .anchor a =>
    drop
    return some a
  | _ => return none

/-- A tag, if it is the next token, as its handle and suffix. -/
def tag? : ReadNodes (Option (Option String × String)) := do
  match ← peek with
  | .tag handle suffix =>
    drop
    return some (handle, suffix)
  | _ => return none

/-- The whole tag of a handle and a suffix. -/
def resolveTag (handle : Option String) (suffix : String) : ReadNodes String := do
  match handle with
  | none => return suffix
  | some h =>
    match (← get).handles.lookup h with
    | some start => return start ++ suffix
    | none => throw .grammar

/-- The properties in front of a node, in either order. -/
def properties : ReadNodes Properties := do
  let first ← anchor?
  let tag ← tag?
  let anchor ← if first.isNone && tag.isSome then anchor? else pure first
  match tag with
  | none => return { anchor }
  | some (handle, suffix) => return { anchor, tag := some (← resolveTag handle suffix) }

/-- The tag of a node, where a single exclamation mark counts as none. -/
def tagOr (p : Properties) (default : String) : String :=
  match p.tag with
  | none => default
  | some t => if t = "!" then default else t

/-- A new node with the anchor of its properties, which must be a new one. -/
def addWith (p : Properties) (n : Node) : ReadNodes Nat := do
  match p.anchor with
  | none => add n
  | some a =>
    if ((← get).anchors.lookup a).isSome then throw .reference
    else
      let id ← add n
      modify fun c => { c with anchors := (a, id) :: c.anchors }
      return id

/-- The tag of a scalar: plain ones, and those with a single exclamation mark, get it from their
text. -/
def scalarTag (p : Properties) (plain : Bool) (text : Option (List Char)) : String :=
  let ofText :=
    match text with
    | some cs => Tag.ofPlain cs
    | none => Tag.str
  match p.tag with
  | none => if plain then ofText else Tag.str
  | some t => if t = "!" then ofText else t

mutual

/-- A node. In block collections it may be a block collection itself; as a key or value it may be a
sequence without an indentation of its own. -/
def node (fuel : Nat) (block indentless : Bool) : ReadNodes Nat := do
  match fuel with
  | 0 => throw .grammar
  | fuel + 1 =>
    match ← peek with
    | .alias name =>
      drop
      match (← get).anchors.lookup name with
      | some id => return id
      | none => throw .reference
    | _ =>
      let p ← properties
      let sequence (items : ReadNodes (List Nat)) : ReadNodes Nat := do
        let id ← addWith p { tag := tagOr p Tag.seq, content := .sequence [] }
        fill id (.sequence (← items))
        return id
      let mapping (entries : ReadNodes (List (Nat × Nat))) : ReadNodes Nat := do
        let id ← addWith p { tag := tagOr p Tag.map, content := .mapping [] }
        fill id (.mapping (← entries))
        return id
      match ← peek with
      | .scalar plain text =>
        drop
        addWith p { tag := scalarTag p plain text, content := .scalar text }
      | .flowSequenceStart => sequence (do drop; flowItems fuel true)
      | .flowMappingStart => mapping (do drop; flowEntries fuel true)
      | t =>
        if indentless && t = .blockEntry then sequence (indentlessItems fuel)
        else if block && t = .blockSequenceStart then sequence (do drop; blockItems fuel)
        else if block && t = .blockMappingStart then mapping (do drop; blockEntries fuel)
        else if p.anchor.isSome || p.tag.isSome then
          addWith p { tag := scalarTag p true (some []), content := .scalar (some []) }
        else throw .grammar

/-- A node, or an empty scalar if one of some tokens comes next. -/
def nodeUnless (fuel : Nat) (ends : List Token) (block indentless : Bool) : ReadNodes Nat := do
  match fuel with
  | 0 => throw .grammar
  | fuel + 1 => if ← seesAny ends then addEmpty else node fuel block indentless

/-- The items of a block sequence. -/
def blockItems (fuel : Nat) : ReadNodes (List Nat) := do
  match fuel with
  | 0 => throw .grammar
  | fuel + 1 =>
    if ← accept .blockEntry then
      let x ← nodeUnless fuel [.blockEntry, .blockEnd] true false
      return x :: (← blockItems fuel)
    else if ← accept .blockEnd then return []
    else throw .grammar

/-- The items of a sequence without an indentation of its own. -/
def indentlessItems (fuel : Nat) : ReadNodes (List Nat) := do
  match fuel with
  | 0 => throw .grammar
  | fuel + 1 =>
    if ← accept .blockEntry then
      let x ← nodeUnless fuel [.blockEntry, .key, .value, .blockEnd] true false
      return x :: (← indentlessItems fuel)
    else return []

/-- A value behind a colon, or an empty scalar if there is no colon. -/
def valueUnless (fuel : Nat) (ends : List Token) (block : Bool) : ReadNodes Nat := do
  match fuel with
  | 0 => throw .grammar
  | fuel + 1 => if ← accept .value then nodeUnless fuel ends block block else addEmpty

/-- The entries of a block mapping. -/
def blockEntries (fuel : Nat) : ReadNodes (List (Nat × Nat)) := do
  match fuel with
  | 0 => throw .grammar
  | fuel + 1 =>
    if ← accept .key then
      let k ← nodeUnless fuel [.key, .value, .blockEnd] true true
      let v ← valueUnless fuel [.key, .value, .blockEnd] true
      return (k, v) :: (← blockEntries fuel)
    else if ← accept .blockEnd then return []
    else throw .grammar

/-- A comma in front of all items but the first. -/
def separator (fuel : Nat) (first : Bool) : ReadNodes Unit := do
  match fuel with
  | 0 => throw .grammar
  | _ + 1 =>
    if first then return ()
    else if ← accept .flowEntry then return ()
    else throw .grammar

/-- The items of a flow sequence. An entry of a mapping may stand as an item and is then a mapping
of its own. -/
def flowItems (fuel : Nat) (first : Bool) : ReadNodes (List Nat) := do
  match fuel with
  | 0 => throw .grammar
  | fuel + 1 =>
    if ← accept .flowSequenceEnd then return []
    else
      separator fuel first
      if ← seesAny [.key] then
        let id ← add { tag := Tag.map, content := .mapping [] }
        drop
        let k ← nodeUnless fuel [.value, .flowEntry, .flowSequenceEnd] false false
        let v ← valueUnless fuel [.flowEntry, .flowSequenceEnd] false
        fill id (.mapping [(k, v)])
        return id :: (← flowItems fuel false)
      else if ← accept .flowSequenceEnd then return []
      else
        let x ← node fuel false false
        return x :: (← flowItems fuel false)

/-- The entries of a flow mapping. -/
def flowEntries (fuel : Nat) (first : Bool) : ReadNodes (List (Nat × Nat)) := do
  match fuel with
  | 0 => throw .grammar
  | fuel + 1 =>
    if ← accept .flowMappingEnd then return []
    else
      separator fuel first
      if ← accept .key then
        let k ← nodeUnless fuel [.value, .flowEntry, .flowMappingEnd] false false
        let v ← valueUnless fuel [.flowEntry, .flowMappingEnd] false
        return (k, v) :: (← flowEntries fuel false)
      else if ← accept .flowMappingEnd then return []
      else
        let k ← node fuel false false
        let _ ← peek
        let v ← addEmpty
        return (k, v) :: (← flowEntries fuel false)

end

/-! ## Documents -/

/-- Leaves all marks of the end of a document behind. -/
def dropEnds (fuel : Nat) : ReadNodes Unit := do
  match fuel with
  | 0 => throw .grammar
  | fuel + 1 => if ← accept .documentEnd then dropEnds fuel else return ()

/-- The handles that the directives declare. There is at most one version, the first. -/
def directives (fuel : Nat) (version : Bool) (handles : List (String × String)) :
    ReadNodes (List (String × String)) := do
  match fuel with
  | 0 => throw .grammar
  | fuel + 1 =>
    match ← peek with
    | .versionDirective major =>
      drop
      if version || major != 1 then throw .grammar else directives fuel true handles
    | .tagDirective handle start =>
      drop
      if (handles.lookup handle).isSome then throw .grammar
      else directives fuel version ((handle, start) :: handles)
    | .otherDirective =>
      drop
      directives fuel version handles
    | _ => return handles

/-- The directives of a document and the mark of its start. -/
def documentStart (fuel : Nat) : ReadNodes Unit := do
  let handles ← directives fuel false []
  if ← accept .documentStart then
    modify fun c => { c with handles := handles ++ defaultHandles }
  else throw .grammar

/-- Whether the next token is a directive. -/
def seesDirective : ReadNodes Bool := do
  match ← peek with
  | .versionDirective _ | .tagDirective .. | .otherDirective => return true
  | _ => return false

/-- The content of a document behind the mark of its start. -/
def documentContent (fuel : Nat) : ReadNodes Nat := do
  if ← seesDirective then addEmpty
  else nodeUnless fuel [.documentStart, .documentEnd, .streamEnd] true false

/-- The root of the first document, if there is one. -/
def root? (fuel : Nat) : ReadNodes (Option Nat) := do
  drop
  if (← seesDirective) || (← seesAny [.documentStart, .streamEnd]) then
    dropEnds fuel
    if ← seesAny [.streamEnd] then return none
    else
      documentStart fuel
      return some (← documentContent fuel)
  else
    modify fun c => { c with handles := defaultHandles }
    return some (← node fuel true false)

/-- The root of the only document. -/
def document (fuel : Nat) : ReadNodes (Option Nat) := do
  match ← root? fuel with
  | none => return none
  | some id =>
    let _ ← accept .documentEnd
    dropEnds fuel
    if ← seesAny [.streamEnd] then return some id
    else
      documentStart fuel
      throw .reference

end ReadNodes

/-- The root of the document in a text, if there is one, and its nodes. -/
def readNodes (cs : List Char) : Except Fault (Option Nat × Nodes) := do
  let stream := tokenStream cs
  let start : NodeReader := { tokens := stream.tokens, fault := stream.fault }
  let (id, c) ← (ReadNodes.document (8 * stream.tokens.length + 8)).run start
  return (id, c.nodes)

end PerfLedger.Yaml
