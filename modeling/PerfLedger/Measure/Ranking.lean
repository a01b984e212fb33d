/-!
# Ranking with a fallible order

Sorting, least and greatest members when a comparison may fail. The first comparison that fails
decides what is reported, so the order in which members are compared is part of the definitions:
extremes compare each member with the best one so far, and sorting extends the run at the front
and then inserts the other members one by one, looking for the place by bisection.
-/

namespace PerfLedger.Ranking

variable {α ε : Type}

/-- The earliest member that no later one beats. -/
def best (beats : α → α → Except ε Bool) (x : α) : List α → Except ε α
  | [] => .ok x
  | y :: ys => do
    let b ← beats y x
    best beats (if b then y else x) ys

/-- The members at the front, each of which is less than the one before it, and the others. -/
def descendingRun (less : α → α → Except ε Bool) (previous : α) :
    List α → Except ε (List α × List α)
  | [] => .ok ([], [])
  | y :: ys => do
    if ← less y previous then
      let (run, rest) ← descendingRun less y ys
      return (y :: run, rest)
    else return ([], y :: ys)

/-- The members at the front, none of which is less than the one before it, and the others. -/
def ascendingRun (less : α → α → Except ε Bool) (previous : α) :
    List α → Except ε (List α × List α)
  | [] => .ok ([], [])
  | y :: ys => do
    if ← less y previous then return ([], y :: ys)
    else
      let (run, rest) ← ascendingRun less y ys
      return (y :: run, rest)

/-- The place for a member between `low` and `high`, behind all that are not greater. -/
def place (less : α → α → Except ε Bool) (x : α) (xs : List α) (low high : Nat) :
    Except ε Nat :=
  if low < high then
    let middle := (low + high) / 2
    match xs[middle]? with
    | none => .ok low
    | some y => do
      if ← less x y then place less x xs low middle else place less x xs (middle + 1) high
  else .ok low
termination_by high - low

/-- A sorted list with one more member. -/
def insert (less : α → α → Except ε Bool) (x : α) (xs : List α) : Except ε (List α) := do
  let n ← place less x xs 0 xs.length
  return xs.take n ++ x :: xs.drop n

/-- A sorted list with more members, inserted in turn. -/
def insertAll (less : α → α → Except ε Bool) (sorted : List α) : List α → Except ε (List α)
  | [] => .ok sorted
  | x :: xs => do insertAll less (← insert less x sorted) xs

/-- The members in ascending order; members that are not told apart stay in their order. -/
def sort (less : α → α → Except ε Bool) : List α → Except ε (List α)
  | [] => .ok []
  | [x] => .ok [x]
  | x :: y :: ys => do
    if ← less y x then
      let (run, rest) ← descendingRun less y ys
      insertAll less (x :: y :: run).reverse rest
    else
      let (run, rest) ← ascendingRun less y ys
      insertAll less (x :: y :: run) rest

/-- The members in descending order; members that are not told apart stay in their order. -/
def sortDescending (less : α → α → Except ε Bool) (xs : List α) : Except ε (List α) :=
  (sort less xs.reverse).map List.reverse

end PerfLedger.Ranking
