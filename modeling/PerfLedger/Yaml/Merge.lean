import PerfLedger.Yaml.Node
import PerfLedger.Yaml.Tag

/-!
# Merge keys

An entry whose key has the tag of a merge stands for the entries of other mappings: its value is a
mapping, or a sequence of mappings of which the earlier ones count more. What is merged comes in
front of a mapping's own entries, so that these count more.

A mapping that is merged is merged into first. Each step takes one merge key out for good, also if a
mapping is merged into itself, so that the number of entries bounds the steps.
-/

namespace PerfLedger.Yaml

namespace Nodes

/-- The entries of a node; only mappings have any. -/
def entries (ns : Nodes) (id : Nat) : List (Nat × Nat) :=
  match (ns.node id).content with
  | .mapping es => es
  | _ => []

/-- The nodes with the entries of a mapping replaced. -/
def setEntries (ns : Nodes) (id : Nat) (es : List (Nat × Nat)) : Nodes :=
  ns.replace id { ns.node id with content := .mapping es }

/-- The value of the first merge key among entries, and the other entries. -/
def takeMerge? (ns : Nodes) : List (Nat × Nat) → Option (Nat × List (Nat × Nat))
  | [] => none
  | e :: es =>
    if (ns.node e.1).tag = Tag.merge then some (e.2, es)
    else (ns.takeMerge? es).map fun (v, rest) => (v, e :: rest)

/-- The nodes with a key made a string if it is the indicator of a value. -/
def plainKey (ns : Nodes) (key : Nat) : Nodes :=
  if (ns.node key).tag = Tag.value then ns.replace key { ns.node key with tag := Tag.str } else ns

/-- The nodes with entries in front of those of a mapping that has no merge keys. -/
def prepend (ns : Nodes) (id : Nat) (merged : List (Nat × Nat)) : Nodes :=
  let own := ns.entries id
  (own.foldl (fun ns e => ns.plainKey e.1) ns).setEntries id (merged ++ own)

/-- The nodes that the value of a merge key names. -/
def sources (ns : Nodes) (v : Nat) : Except Fault (List Nat) :=
  match (ns.node v).content with
  | .mapping _ => .ok [v]
  | .sequence items => .ok items
  | .scalar _ => .error .tag

mutual

/-- The nodes with all merge keys of a mapping replaced by what they stand for; `merged` has been
gathered before. -/
def mergeInto (fuel : Nat) (ns : Nodes) (id : Nat) (merged : List (Nat × Nat)) :
    Except Fault Nodes :=
  match fuel with
  | 0 => .error .tag
  | fuel + 1 =>
    match ns.takeMerge? (ns.entries id) with
    | none => .ok (ns.prepend id merged)
    | some (v, rest) => do
      let ns := ns.setEntries id rest
      let (ns, more) ← gather fuel ns (← ns.sources v)
      mergeInto fuel ns id (merged ++ more)
termination_by (fuel, 0)

/-- The entries of mappings, those of the last one first. -/
def gather (fuel : Nat) (ns : Nodes) (ids : List Nat) :
    Except Fault (Nodes × List (Nat × Nat)) :=
  match ids with
  | [] => .ok (ns, [])
  | id :: ids =>
    match (ns.node id).content with
    | .mapping _ => do
      let ns ← mergeInto fuel ns id []
      let own := ns.entries id
      let (ns, others) ← gather fuel ns ids
      return (ns, others ++ own)
    | _ => .error .tag
termination_by (fuel, ids.length + 1)

end

/-- How many entries all mappings have. -/
def entryCount (ns : Nodes) : Nat :=
  ns.foldl (fun k n =>
    match n.content with
    | .mapping es => k + es.length
    | _ => k) 0

/-- The nodes with all merge keys of a mapping replaced by what they stand for. -/
def merge (ns : Nodes) (id : Nat) : Except Fault Nodes :=
  ns.mergeInto (ns.entryCount + 1) id []

end Nodes

end PerfLedger.Yaml
