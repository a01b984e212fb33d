import PerfLedger.Results.Basic

/-!
# Drafts

A draft is a result that is being put together. Whoever asks it for the baseline of a label gets a
reference, and all who have the reference add operations to the same baseline. So the lists of
operations and the baselines are in a memory, each at a place of its own, and the draft refers to
them. The memory may hold the parts of other drafts as well.

What a draft amounts to at a time are its `results`.
-/

namespace PerfLedger

/-- Where a list of operations is. -/
structure ListRef where
  place : Nat
  deriving DecidableEq

/-- Where a baseline is. -/
structure BaselineRef where
  place : Nat
  deriving DecidableEq

/-- A baseline in memory: its version, and where its operations are. -/
structure BaselineCell where
  version : Value
  operations : ListRef

/-- The lists of operations and the baselines that were made. -/
structure Memory where
  lists : List (List Operation) := []
  cells : List BaselineCell := []

namespace Memory

/-- The memory with a list of operations at a new place. -/
def addList (m : Memory) (os : List Operation) : Memory × ListRef :=
  ({ m with lists := m.lists ++ [os] }, ⟨m.lists.length⟩)

/-- The memory with a baseline at a new place, and with a new list for its operations. -/
def addBaseline (m : Memory) (b : Baseline) : Memory × BaselineRef :=
  let (m, list) := m.addList b.operations
  ({ m with cells := m.cells ++ [⟨b.version, list⟩] }, ⟨m.cells.length⟩)

/-- The operations in a list. There are none where there is no list. -/
def operations (m : Memory) (l : ListRef) : List Operation :=
  m.lists[l.place]?.getD []

/-- The baseline at a place. Where there is none, it has no version and no operations. -/
def baseline (m : Memory) (b : BaselineRef) : Baseline :=
  match m.cells[b.place]? with
  | some c => { version := c.version, operations := m.operations c.operations }
  | none => { version := .null }

/-- The memory with operations added to a list. -/
def extend (m : Memory) (l : ListRef) (os : List Operation) : Memory :=
  { m with lists := m.lists.modify l.place (· ++ os) }

/-- The memory with operations added to the list of a baseline. -/
def extendBaseline (m : Memory) (b : BaselineRef) (os : List Operation) : Memory :=
  match m.cells[b.place]? with
  | some c => m.extend c.operations os
  | none => m

end Memory

/-- A result that is being put together, with the memory that holds its parts. -/
structure Draft where
  memory : Memory
  name : Value
  version : Value
  time : Moment
  current : ListRef
  baselines : List (String × BaselineRef) := []

namespace Draft

/-- What a draft amounts to. -/
def results (d : Draft) : Results where
  name := d.name
  version := d.version
  time := d.time
  current := d.memory.operations d.current
  baselines := d.baselines.map fun e => (e.1, d.memory.baseline e.2)

/-- The draft with a baseline behind the others, and the reference to it. -/
def addBaseline (d : Draft) (label : String) (b : Baseline) : Draft × BaselineRef :=
  let (memory, ref) := d.memory.addBaseline b
  ({ d with memory, baselines := d.baselines ++ [(label, ref)] }, ref)

/-- A draft of results that has none of their baselines yet. -/
def ofCurrent (m : Memory) (r : Results) : Draft :=
  let (memory, current) := m.addList r.current
  { memory, name := r.name, version := r.version, time := r.time, current }

/-- A draft of results, with new places for all its parts. -/
def ofResults (m : Memory) (r : Results) : Draft :=
  r.baselines.foldl (fun d e => (d.addBaseline e.1 e.2).1) (ofCurrent m r)

/-- A new draft, with the time normalised to UTC. -/
def new (m : Memory) (name version : Value) (time : Moment) : Except Time.Fault Draft :=
  (Results.new name version time []).map (ofResults m)

/-- The reference to the baseline of a label. -/
def baseline? (d : Draft) (label : String) : Option BaselineRef :=
  (d.baselines.find? fun e => e.1 == label).map (·.2)

/-- The reference to the baseline of a label, which is made if there is none. -/
def baseline (d : Draft) (label : String) : Draft × BaselineRef :=
  match d.baseline? label with
  | some ref => (d, ref)
  | none => d.addBaseline label { version := .text label }

/-- The draft with operations added to the baseline of a label. -/
def appendTo (d : Draft) (label : String) (os : List Operation) : Draft :=
  let (d, ref) := d.baseline label
  { d with memory := d.memory.extendBaseline ref os }

/-- The draft with operations added to the build under test. -/
def appendCurrent (d : Draft) (os : List Operation) : Draft :=
  { d with memory := d.memory.extend d.current os }

/-! ## Steps -/

/-- What is done with a draft: asking for the baseline of a label, adding an operation to it, or
adding one to the build under test. -/
inductive Step where
  | mention (label : String)
  | append (label : String) (o : Operation)
  | current (o : Operation)

/-- The draft after a step. -/
def step (d : Draft) : Step → Draft
  | .mention label => (d.baseline label).1
  | .append label o => d.appendTo label [o]
  | .current o => d.appendCurrent [o]

/-- The draft after steps. -/
def run (d : Draft) (steps : List Step) : Draft :=
  steps.foldl step d

end Draft

end PerfLedger
