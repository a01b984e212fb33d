import PerfLedger.Yaml.Merge
import PerfLedger.Yaml.Node.Reader
import PerfLedger.Yaml.Scalar

/-!
# Documents

A document is made from its nodes by their tags. A collection is there as soon as its node is met,
and is filled later, in the order in which collections are met; so it can hold itself. Each node is
made once. Keys have to be scalars, since collections change.
-/

namespace PerfLedger.Yaml

/-- What is made of a node. Collections hold the numbers of nodes. -/
inductive Datum where
  | scalar (v : Value)
  | list (items : List Nat)
  | pairs (entries : List (Nat × Nat))
  | set (items : List Nat)
  | dict (entries : List (Nat × Nat))
  deriving Inhabited

/-- A document that is being made: its nodes, what has been made of them, and the collections that
are not filled, the last one first. -/
structure Builder where
  nodes : Nodes
  data : List (Nat × Datum) := []
  waiting : List Nat := []

/-- A step of making a document. -/
abbrev Build (α : Type) := StateT Builder (Except Fault) α

/-- The empty collection that a tag begins, if it is the tag of a collection. -/
def Datum.ofTag? (tag : String) : Option Datum :=
  if tag = Tag.seq then some (.list [])
  else if tag = Tag.map then some (.dict [])
  else if tag = Tag.set then some (.set [])
  else if tag = Tag.omap ∨ tag = Tag.pairs then some (.pairs [])
  else none

namespace Nodes

/-- The text of a node: that of a scalar, or of the value for the indicator of a value among the
entries of a mapping. -/
def text? (fuel : Nat) (ns : Nodes) (id : Nat) : Option (Option (List Char)) :=
  match fuel with
  | 0 => none
  | fuel + 1 =>
    match (ns.node id).content with
    | .scalar text => some text
    | .sequence _ => none
    | .mapping es =>
      match es.find? fun e => (ns.node e.1).tag == Tag.value with
      | some e => ns.text? fuel e.2
      | none => none

/-- The value of a node whose tag is not that of a collection. -/
def scalarValue (ns : Nodes) (id : Nat) : Except Fault Value :=
  let n := ns.node id
  match n.content with
  | .scalar text => Scalar.toValue n.tag text
  | _ =>
    match ns.text? (ns.size + 1) id with
    | none => .error .tag
    | some text => if n.tag = Tag.timestamp then .error .dateKind else Scalar.toValue n.tag text

end Nodes

namespace Build

/-- Keeps what has been made of a node; what was kept last counts. -/
def keep (id : Nat) (d : Datum) : Build Unit :=
  modify fun b => { b with data := (id, d) :: b.data }

/-- Makes what a node stands for, if it has not been met. Collections are left empty. -/
def meet (id : Nat) : Build Unit := do
  let b ← get
  if (b.data.lookup id).isSome then return ()
  else
    match Datum.ofTag? (b.nodes.node id).tag with
    | some d =>
      set { b with waiting := id :: b.waiting }
      keep id d
    | none => keep id (.scalar (← b.nodes.scalarValue id))

/-- A key that has been met, which must be a scalar. -/
def checkKey (id : Nat) : Build Unit := do
  match (← get).data.lookup id with
  | some (.scalar _) => return ()
  | _ => throw .tag

/-- The key and the value of an entry. -/
def meetEntry (e : Nat × Nat) : Build Unit := do
  meet e.1
  checkKey e.1
  meet e.2

/-- The entries of a mapping, behind what is merged into it. -/
def meetMapping (id : Nat) : Build (List (Nat × Nat)) := do
  let b ← get
  match (b.nodes.node id).content with
  | .mapping _ =>
    let nodes ← b.nodes.merge id
    set { b with nodes }
    let es := nodes.entries id
    es.forM meetEntry
    return es
  | _ => throw .tag

/-- The items of a sequence. -/
def items (id : Nat) : Build (List Nat) := do
  match ((← get).nodes.node id).content with
  | .sequence xs => return xs
  | _ => throw .tag

/-- The only entry of a mapping. -/
def meetPair (id : Nat) : Build (Nat × Nat) := do
  match ((← get).nodes.node id).content with
  | .mapping [e] =>
    meet e.1
    meet e.2
    return e
  | _ => throw .tag

/-- Fills a collection. -/
def complete (id : Nat) : Build Unit := do
  match (← get).data.lookup id with
  | some (.list _) =>
    let xs ← items id
    xs.forM meet
    keep id (.list xs)
  | some (.pairs _) =>
    let es ← (← items id).mapM meetPair
    keep id (.pairs es)
  | some (.set _) =>
    let es ← meetMapping id
    keep id (.set (es.map (·.1)))
  | some (.dict _) =>
    let es ← meetMapping id
    keep id (.dict es)
  | _ => return ()

/-- Fills collections until none is left. Each round fills those that the last one met. -/
def completeAll (rounds : Nat) : Build Unit := do
  match rounds with
  | 0 => return ()
  | rounds + 1 =>
    let ids := (← get).waiting.reverse
    if ids = [] then return ()
    else
      modify fun b => { b with waiting := [] }
      ids.forM complete
      completeAll rounds

end Build

/-- A document: the number of its root, if it has one, and what is made of its nodes. -/
structure Document where
  root : Option Nat
  data : List (Nat × Datum)

namespace Document

/-- What is made of a node. -/
def datum (d : Document) (id : Nat) : Datum :=
  (d.data.lookup id).getD default

/-- The value of a node. Collections that lie deeper than a depth come out empty, so that there is a
value even if a collection holds itself. -/
def valueOf (d : Document) (depth id : Nat) : Value :=
  match depth with
  | 0 =>
    match d.datum id with
    | .scalar v => v
    | .list _ | .pairs _ => .list []
    | .set _ => .set []
    | .dict _ => .dict []
  | depth + 1 =>
    match d.datum id with
    | .scalar v => v
    | .list xs => .list (xs.map (d.valueOf depth))
    | .pairs es => .list (es.map fun e => .tuple [d.valueOf depth e.1, d.valueOf depth e.2])
    | .set xs => .set (xs.map (d.valueOf depth))
    | .dict es => .dict (es.map fun e => (d.valueOf depth e.1, d.valueOf depth e.2))

/-- The value of a document down to a depth. Without a root it is nothing. -/
def value (d : Document) (depth : Nat) : Value :=
  match d.root with
  | none => .null
  | some id => d.valueOf depth id

/-- The document that nodes form. -/
def ofNodes (root : Option Nat) (nodes : Nodes) : Except Fault Document :=
  match root with
  | none => .ok { root, data := [] }
  | some id => do
    let make : Build Unit := do
      Build.meet id
      Build.completeAll (nodes.size + 1)
    let (_, b) ← make.run { nodes }
    return { root, data := b.data }

/-! ## Text -/

/-- A text with all ends of lines written as line feeds. -/
def lineFeeds : List Char → List Char
  | [] => []
  | '\r' :: '\n' :: cs => '\n' :: lineFeeds cs
  | c :: cs => (if c = '\r' then '\n' else c) :: lineFeeds cs

/-- A character that a document may hold. -/
def isAllowed (c : Char) : Bool :=
  let n := c.toNat
  c == '\t' || c == '\n' || c == '\r' || (0x20 ≤ n && n ≤ 0x7E) || n == 0x85 ||
    (0xA0 ≤ n && n ≤ 0xD7FF) || (0xE000 ≤ n && n ≤ 0xFFFD) || 0x10000 ≤ n

/-- The document that a text is. -/
def parse (text : List Char) : Except Fault Document :=
  let cs := lineFeeds text
  if cs.all isAllowed then do
    let (root, nodes) ← readNodes cs
    ofNodes root nodes
  else .error .character

end Document

end PerfLedger.Yaml
