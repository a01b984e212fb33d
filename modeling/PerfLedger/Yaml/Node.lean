/-!
# Nodes

The nodes of a document form a graph, since an alias stands for the node of its anchor. So nodes
have numbers, and collections hold the numbers of their members.
-/

namespace PerfLedger.Yaml

/-- What a node holds: a text, which is missing if it is not made of characters; or the numbers of
other nodes. -/
inductive Content where
  | scalar (text : Option (List Char))
  | sequence (items : List Nat)
  | mapping (entries : List (Nat × Nat))
  deriving Inhabited

/-- A node: its tag and its content. -/
structure Node where
  tag : String
  content : Content
  deriving Inhabited

/-- Nodes by number. -/
abbrev Nodes := Array Node

/-- The node with a number. -/
def Nodes.node (ns : Nodes) (id : Nat) : Node :=
  ns[id]?.getD default

/-- The nodes with one replaced. -/
def Nodes.replace (ns : Nodes) (id : Nat) (n : Node) : Nodes :=
  ns.setIfInBounds id n

end PerfLedger.Yaml
