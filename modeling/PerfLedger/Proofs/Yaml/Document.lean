import PerfLedger.Proofs.Fallible
import PerfLedger.Yaml.Document

/-!
# Documents of one entry

The nodes of a mapping with one entry are the mapping, its key and its value, in this order. If key
and value are scalars, the document is made in two rounds: the mapping is met and left empty, and
filled when its key and value have been met (`ofNodes_entryNodes`).
-/

namespace PerfLedger.Yaml

/-- The nodes of a mapping with one entry. -/
def entryNodes (key item : Node) : Nodes :=
  #[⟨Tag.map, .mapping [(1, 2)]⟩, key, item]

variable {key item : Node}

namespace Nodes

/-- Nothing is merged into a mapping whose only key is a string. -/
theorem merge_entryNodes (hkey : key.tag = Tag.str) :
    (entryNodes key item).merge 0 = .ok (entryNodes key item) := by
  have htake : (entryNodes key item).takeMerge? ((entryNodes key item).entries 0) = none := by
    show (if key.tag = Tag.merge then _ else _) = none
    rw [hkey, if_neg (by decide)]
    rfl
  have hplain : (entryNodes key item).plainKey 1 = entryNodes key item := by
    show (if key.tag = Tag.value then _ else _) = _
    rw [hkey, if_neg (by decide)]
  rw [merge, mergeInto, htake]
  show Except.ok (((entryNodes key item).plainKey 1).setEntries 0 [(1, 2)]) = _
  rw [hplain]
  rfl

end Nodes

namespace Build

variable {b : Builder} {id : Nat}

/-- A scalar is made when it is met. -/
theorem meet_scalar {v : Value} (hnew : b.data.lookup id = none)
    (htag : Datum.ofTag? (b.nodes.node id).tag = none) (hv : b.nodes.scalarValue id = .ok v) :
    (meet id).run b = .ok ((), { b with data := (id, .scalar v) :: b.data }) := by
  simp only [meet, StateT.run_bind, StateT.run_get, pure_bind, hnew, Option.isSome_none,
    Bool.false_eq_true, if_false, htag, hv, keep]
  rfl

/-- A collection is left empty when it is met. -/
theorem meet_collection {d : Datum} (hnew : b.data.lookup id = none)
    (htag : Datum.ofTag? (b.nodes.node id).tag = some d) :
    (meet id).run b
      = .ok ((), { b with data := (id, d) :: b.data, waiting := id :: b.waiting }) := by
  simp only [meet, StateT.run_bind, StateT.run_get, pure_bind, hnew, Option.isSome_none,
    Bool.false_eq_true, if_false, htag, keep]
  rfl

theorem run_meetMapping {es : List (Nat × Nat)} {ns : Nodes}
    (hcontent : (b.nodes.node id).content = .mapping es) (hmerge : b.nodes.merge id = .ok ns) :
    (meetMapping id).run b
      = StateT.run (do (ns.entries id).forM meetEntry; return ns.entries id)
        { b with nodes := ns } := by
  simp only [meetMapping, StateT.run_bind, StateT.run_get, pure_bind, hcontent, hmerge]
  rfl

section entry

variable {k v : Value} (htag : key.tag = Tag.str)
  (hkey : (entryNodes key item).scalarValue 1 = .ok k) (hitem : Datum.ofTag? item.tag = none)
  (hvalue : (entryNodes key item).scalarValue 2 = .ok v)

include htag hkey hitem hvalue

/-- Key and value are made, the key first. -/
theorem meetEntry_entryNodes (waiting : List Nat) :
    (meetEntry (1, 2)).run ⟨entryNodes key item, [(0, .dict [])], waiting⟩ = .ok ((),
      ⟨entryNodes key item, [(2, .scalar v), (1, .scalar k), (0, .dict [])], waiting⟩) := by
  have hstr : Datum.ofTag? ((entryNodes key item).node 1).tag = none := by
    show Datum.ofTag? key.tag = none
    rw [htag]
    decide
  have hfirst : (meet 1).run ⟨entryNodes key item, [(0, .dict [])], waiting⟩ = .ok ((),
      ⟨entryNodes key item, [(1, .scalar k), (0, .dict [])], waiting⟩) :=
    meet_scalar rfl hstr hkey
  have hsecond :
      (meet 2).run ⟨entryNodes key item, [(1, .scalar k), (0, .dict [])], waiting⟩ = .ok ((),
        ⟨entryNodes key item, [(2, .scalar v), (1, .scalar k), (0, .dict [])], waiting⟩) :=
    meet_scalar rfl hitem hvalue
  rw [meetEntry, StateT.run_bind, hfirst]
  exact hsecond

/-- The mapping is filled with its entry. -/
theorem complete_entryNodes (waiting : List Nat) :
    (complete 0).run ⟨entryNodes key item, [(0, .dict [])], waiting⟩ = .ok ((),
      ⟨entryNodes key item,
        [(0, .dict [(1, 2)]), (2, .scalar v), (1, .scalar k), (0, .dict [])], waiting⟩) := by
  have hmapping : (meetMapping 0).run ⟨entryNodes key item, [(0, .dict [])], waiting⟩
      = .ok ([(1, 2)],
        ⟨entryNodes key item, [(2, .scalar v), (1, .scalar k), (0, .dict [])], waiting⟩) := by
    have hone : ([(1, 2)].forM meetEntry).run ⟨entryNodes key item, [(0, .dict [])], waiting⟩
        = (meetEntry (1, 2)).run ⟨entryNodes key item, [(0, .dict [])], waiting⟩ >>= pure := rfl
    rw [meetEntry_entryNodes htag hkey hitem hvalue] at hone
    rw [run_meetMapping rfl (Nodes.merge_entryNodes htag), StateT.run_bind]
    exact congrArg (· >>= _) hone
  rw [complete, StateT.run_bind]
  show ((meetMapping 0) >>= fun es => keep 0 (.dict es)).run _ = _
  rw [StateT.run_bind, hmapping]
  rfl

end entry

end Build

/-- **A document of one entry is a mapping with that entry**, down to any depth. -/
theorem ofNodes_entryNodes {k v : Value} (htag : key.tag = Tag.str)
    (hkey : (entryNodes key item).scalarValue 1 = .ok k) (hitem : Datum.ofTag? item.tag = none)
    (hvalue : (entryNodes key item).scalarValue 2 = .ok v) :
    ∃ d, Document.ofNodes (some 0) (entryNodes key item) = .ok d ∧
      ∀ n, d.value (n + 1) = .dict [(k, v)] := by
  have hmeet : (Build.meet 0).run { nodes := entryNodes key item } = .ok ((),
      ⟨entryNodes key item, [(0, .dict [])], [0]⟩) := Build.meet_collection rfl rfl
  have hcomplete := Build.complete_entryNodes htag hkey hitem hvalue []
  have hall : (Build.completeAll 4).run ⟨entryNodes key item, [(0, .dict [])], [0]⟩ = .ok ((),
      ⟨entryNodes key item,
        [(0, .dict [(1, 2)]), (2, .scalar v), (1, .scalar k), (0, .dict [])], []⟩) := by
    have hone : ([0].forM Build.complete).run ⟨entryNodes key item, [(0, .dict [])], []⟩
        = (Build.complete 0).run ⟨entryNodes key item, [(0, .dict [])], []⟩ >>= pure := rfl
    rw [hcomplete] at hone
    exact congrArg (· >>= fun p => (Build.completeAll 3).run p.2) hone
  refine ⟨⟨some 0, [(0, .dict [(1, 2)]), (2, .scalar v), (1, .scalar k), (0, .dict [])]⟩, ?_, ?_⟩
  · simp only [Document.ofNodes, StateT.run_bind, hmeet]
    exact congrArg (· >>= fun p => Except.ok (Document.mk (some 0) p.2.data)) hall
  · intro n
    cases n with
    | zero => rfl
    | succ n => rfl

/-- **A text whose nodes are those of one entry**, with a string for its key. -/
theorem parse_entryNodes {text key : List Char} {tag : String} {content : Option (List Char)}
    {v : Value} (hlines : Document.lineFeeds text = text)
    (hallowed : text.all Document.isAllowed = true)
    (hnodes : readNodes text
      = .ok (some 0, entryNodes ⟨Tag.str, .scalar (some key)⟩ ⟨tag, .scalar content⟩))
    (htag : Datum.ofTag? tag = none) (hvalue : Scalar.toValue tag content = .ok v) :
    ∃ d, Document.parse text = .ok d ∧
      ∀ n, d.value (n + 1) = .dict [(.text (String.ofList key), v)] := by
  obtain ⟨d, hd, hvalues⟩ := @ofNodes_entryNodes ⟨Tag.str, .scalar (some key)⟩
    ⟨tag, .scalar content⟩ (.text (String.ofList key)) v rfl rfl htag hvalue
  refine ⟨d, ?_, hvalues⟩
  simp only [Document.parse, hlines, hallowed, if_true, hnodes]
  exact hd

end PerfLedger.Yaml
