import PerfLedger.Results.Operation
import PerfLedger.Time.Stamp

/-!
# Results

The results of one execution of a test: the operations of the build under test, and for each
baseline label the operations measured against that version. Asking for the baseline of a label
creates an empty one if there is none; labels keep the order in which they were first mentioned.
A new result normalises its time to UTC.

Name, version under test and the version of a baseline are values that are not checked until the
results are stored.
-/

namespace PerfLedger

/-- The operations measured against one version. -/
structure Baseline where
  version : Value
  operations : List Operation := []
  deriving Inhabited

/-- The results of one execution of a test. -/
structure Results where
  name : Value := .text ""
  version : Value := .text ""
  time : Moment
  current : List Operation := []
  baselines : List (String × Baseline) := []
  deriving Inhabited

/-- All recorded executions of one test, newest first, and the labels of all their baselines. -/
structure History where
  versions : List String
  results : List Results
  deriving Inhabited

namespace Results

/-- New results, with the time normalised to UTC. -/
def new (name version : Value) (time : Moment) (current : List Operation) :
    Except Time.Fault Results := do
  let time ← Time.ensureUtc time
  return { name, version, time, current }

/-! ## Baselines -/

/-- The baseline of a label. -/
def baseline? (r : Results) (label : String) : Option Baseline :=
  (r.baselines.find? fun e => e.1 == label).map (·.2)

/-- Entries with the one of a label replaced, or added at the end. -/
def putEntry (label : String) (b : Baseline) : List (String × Baseline) → List (String × Baseline)
  | [] => [(label, b)]
  | e :: es => if e.1 = label then (label, b) :: es else e :: putEntry label b es

/-- The results with the baseline of a label set. -/
def setBaseline (r : Results) (label : String) (b : Baseline) : Results :=
  { r with baselines := putEntry label b r.baselines }

/-- The results with a baseline of a label, an empty one of that version if there was none. -/
def withBaseline (r : Results) (label : String) : Results :=
  match r.baseline? label with
  | some _ => r
  | none => r.setBaseline label { version := .text label }

/-- The baseline of a label, an empty one of that version if there is none. -/
def baseline (r : Results) (label : String) : Baseline :=
  (r.baseline? label).getD { version := .text label }

/-- The results with operations added under a label. -/
def appendTo (r : Results) (label : String) (os : List Operation) : Results :=
  let b := r.baseline label
  r.setBaseline label { b with operations := b.operations ++ os }

/-- The results with operations added to the build under test. -/
def appendCurrent (r : Results) (os : List Operation) : Results :=
  { r with current := r.current ++ os }

/-! ## Equality -/

/-- Equality of the members of two lists of one length. -/
def equalAll (eq : α → α → Except AmountFault Bool) : List α → List α → Except AmountFault Bool
  | [], [] => .ok true
  | x :: xs, y :: ys => do if ← eq x y then equalAll eq xs ys else return false
  | _, _ => .ok false

/-- Equality of lists of operations; lists of different lengths are not compared any further. -/
def equalOperations (as bs : List Operation) : Except AmountFault Bool :=
  if as.length = bs.length then equalAll Operation.equal as bs else .ok false

/-- Equality of baselines. -/
def equalBaseline (a b : Baseline) : Except AmountFault Bool := do
  if ← a.version.equal b.version then equalOperations a.operations b.operations
  else return false

/-- Whether each baseline equals the one of its label among the others. -/
def equalEntries (others : List (String × Baseline)) :
    List (String × Baseline) → Except AmountFault Bool
  | [] => .ok true
  | (label, b) :: es =>
    match (others.find? fun e => e.1 == label).map (·.2) with
    | none => .ok false
    | some c => do if ← equalBaseline b c then equalEntries others es else return false

/-- Equality of results; the order of the baselines does not matter. -/
def equal (a b : Results) : Except AmountFault Bool := do
  if !(← a.name.equal b.name) then return false
  if !(← a.version.equal b.version) then return false
  if !a.time.same b.time then return false
  if !(← equalOperations a.current b.current) then return false
  if a.baselines.length ≠ b.baselines.length then return false
  equalEntries b.baselines a.baselines

end Results

end PerfLedger
