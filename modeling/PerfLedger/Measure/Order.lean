import PerfLedger.Measure.Amount
import PerfLedger.Measure.Ranking

/-!
# Order of amounts

Two amounts of one kind are compared by their rounded base values. Equality and the strict order
are the two comparisons that are made; the others are said in terms of them. Amounts of different
kinds are unequal and have no order.

Where amounts stand among other values, as members of a list that is sorted or of a set, they are
*items*: an amount and a plain value are unequal and have no order either.
-/

namespace PerfLedger

/-- A relation of the order. -/
inductive Relation where
  | less
  | lessEqual
  | greater
  | greaterEqual
  deriving DecidableEq

/-- The operator of a relation. -/
def Relation.symbol : Relation → String
  | .less => "<"
  | .lessEqual => "<="
  | .greater => ">"
  | .greaterEqual => ">="

/-- Whether a relation holds of two things in the given order. -/
def Relation.holds : Relation → Ordering → Bool
  | .less, o => o == .lt
  | .lessEqual, o => o != .gt
  | .greater, o => o == .gt
  | .greaterEqual, o => o != .lt

namespace Amount

/-- The comparison of the base values of two amounts. The left one is computed first. -/
def compareBase (test : Decimal → Decimal → Except Decimal.Signal Bool) (a b : Amount) :
    Except Decimal.Signal Bool := do
  let x ← a.baseValue
  let y ← b.baseValue
  test x y

/-- Equality. -/
def equal (a b : Amount) : Except AmountFault Bool :=
  if a.kind = b.kind then signaling (compareBase Decimal.equal a b) else .ok false

/-- The strict order of two amounts of one kind. -/
def lessBase (a b : Amount) : Except AmountFault Bool :=
  signaling (compareBase Decimal.less a b)

/-- A relation between two amounts. Less or equal is tested as less, then equal; greater as not less
and not equal; greater or equal as not less. -/
def relate (r : Relation) (a b : Amount) : Except AmountFault Bool :=
  if a.kind = b.kind then do
    let l ← lessBase a b
    match r with
    | .less => return l
    | .lessEqual => if l then return true else equal a b
    | .greater => if l then return false else return !(← equal a b)
    | .greaterEqual => return !l
  else .error (.notComparable r.symbol a.kind.name b.kind.name)

end Amount

/-! ## Plain values -/

/-- A number of any kind by its exact value as a decimal. -/
def Value.exactNumber? : Value → Option Decimal
  | .bool b => some (Decimal.ofNat b.toNat)
  | .int i => some (Decimal.ofInt i)
  | .decimal d => some d
  | .float (.finite s m e) =>
    if 0 ≤ e then some (.finite s (m * Nat.pow 2 e.toNat) 0)
    else some (.finite s (m * Nat.pow 5 (-e).toNat) e)
  | .float (.infinite s) => some (.infinite s)
  | .float .nan => some (.nan false false 0)
  | _ => none

/-- A decimal number. -/
def Value.isDecimal : Value → Bool
  | .decimal _ => true
  | _ => false

mutual

/-- Equality of plain values: of numbers by value, whatever their kinds; else within a kind. -/
def Value.equal (v w : Value) : Except AmountFault Bool :=
  match v, w with
  | .null, .null => .ok true
  | .text s, .text t => .ok (s == t)
  | .bytes s, .bytes t => .ok (s == t)
  | .moment m, .moment n => .ok (m.same n)
  | .date y m d, .date y' m' d' => .ok (y == y' && m == m' && d == d')
  | .list xs, .list ys => equalAll xs ys
  | .tuple xs, .tuple ys => equalAll xs ys
  | .set xs, .set ys => equalAll xs ys
  | .dict es, .dict fs => equalEntries es fs
  | v, w =>
    match v.exactNumber?, w.exactNumber? with
    | some x, some y => signaling (Decimal.equal x y)
    | _, _ => .ok false

/-- Equality of sequences, member by member. -/
def Value.equalAll : List Value → List Value → Except AmountFault Bool
  | [], [] => .ok true
  | x :: xs, y :: ys => do if ← x.equal y then equalAll xs ys else return false
  | _, _ => .ok false

/-- Equality of mappings, entry by entry. -/
def Value.equalEntries :
    List (Value × Value) → List (Value × Value) → Except AmountFault Bool
  | [], [] => .ok true
  | (k, v) :: es, (l, w) :: fs => do
    if ← k.equal l then (if ← v.equal w then equalEntries es fs else return false)
    else return false
  | _, _ => .ok false

end

/-- The order of two numbers that have one, with the signal that a decimal not-a-number gives. -/
def Value.relateNumbers (r : Relation) (decimal : Bool) (x y : Decimal) :
    Except AmountFault Bool :=
  if x.isNaN || y.isNaN then
    (if decimal then .error (.signal .invalidOperation) else .ok false)
  else .ok (r.holds (Decimal.compareNumbers x y))

mutual

/-- A relation between two plain values: numbers, texts, bytes, moments, dates, or sequences. -/
def Value.relate (r : Relation) (v w : Value) : Except AmountFault Bool :=
  match v, w with
  | .text s, .text t => .ok (r.holds (compare s t))
  | .bytes s, .bytes t => .ok (r.holds (compare s t))
  | .moment m, .moment n =>
    if m.isAware = n.isAware then .ok (r.holds (compare m.instant n.instant))
    else .error .mixedMoments
  | .date y m d, .date y' m' d' =>
    .ok (r.holds (compare (Time.dayNumber y m d) (Time.dayNumber y' m' d')))
  | .list xs, .list ys => relateAll r xs ys
  | .tuple xs, .tuple ys => relateAll r xs ys
  | v, w =>
    match v.exactNumber?, w.exactNumber? with
    | some x, some y => Value.relateNumbers r (v.isDecimal || w.isDecimal) x y
    | _, _ => .error (.notComparable r.symbol v.qualifiedKind w.qualifiedKind)

/-- A relation between two sequences: that of the first members that differ, or of the lengths. -/
def Value.relateAll (r : Relation) : List Value → List Value → Except AmountFault Bool
  | [], ys => .ok (r.holds (compare 0 ys.length))
  | _ :: _, [] => .ok (r.holds .gt)
  | x :: xs, y :: ys => do if ← x.equal y then relateAll r xs ys else x.relate r y

end

/-! ## Items -/

/-- An amount or another value. -/
inductive Item where
  | amount (a : Amount)
  | plain (v : Value)

namespace Item

/-- The name of an item's kind. -/
def qualifiedKind : Item → String
  | .amount a => a.kind.name
  | .plain v => v.qualifiedKind

/-- The short name of an item's kind. -/
def kindName : Item → String
  | .amount a => a.kind.name
  | .plain v => v.kindName

/-- An item as it is shown. -/
def shown : Item → String
  | .amount a => a.shown
  | .plain v => v.shown

/-- Equality of items. -/
def equal : Item → Item → Except AmountFault Bool
  | .amount a, .amount b => a.equal b
  | .plain v, .plain w => v.equal w
  | _, _ => .ok false

/-- A relation between two items. -/
def relate (r : Relation) : Item → Item → Except AmountFault Bool
  | .amount a, .amount b => a.relate r b
  | .plain v, .plain w => v.relate r w
  | x, y => .error (.notComparable r.symbol x.qualifiedKind y.qualifiedKind)

/-- An item can be a member of a set if its base value can be computed or its kind does not
change. -/
def checkHashable : Item → Except AmountFault Unit
  | .amount a => (signaling a.baseValue).map fun _ => ()
  | .plain (.decimal (.nan _ true _)) => .error .unhashableNaN
  | .plain v => if v.isMutable then .error (.unhashable v.kindName) else .ok ()

/-- Whether an item equals one of the given ones. -/
def isMember (x : Item) : List Item → Except AmountFault Bool
  | [] => .ok false
  | y :: ys => do if ← x.equal y then return true else isMember x ys

/-- The members of the set of the given items, in addition to those already in it. -/
def addDistinct (members : List Item) : List Item → Except AmountFault (List Item)
  | [] => .ok members
  | x :: xs => do
    x.checkHashable
    addDistinct (if ← x.isMember members then members else members ++ [x]) xs

/-- How many different members the items have. -/
def countDistinct (xs : List Item) : Except AmountFault Nat :=
  (addDistinct [] xs).map List.length

/-- The items in ascending order. -/
def sort (xs : List Item) : Except AmountFault (List Item) :=
  Ranking.sort (relate .less) xs

/-- The items in descending order. -/
def sortDescending (xs : List Item) : Except AmountFault (List Item) :=
  Ranking.sortDescending (relate .less) xs

/-- The earliest of the least items. -/
def least : List Item → Except AmountFault Item
  | [] => .error (.emptySequence "min")
  | x :: xs => Ranking.best (relate .less) x xs

/-- The earliest of the greatest items. -/
def greatest : List Item → Except AmountFault Item
  | [] => .error (.emptySequence "max")
  | x :: xs => Ranking.best (relate .greater) x xs

/-- The left operand of a sum or difference with an item. -/
def combineWith (op : Amount → Amount → Except AmountFault Amount) (a : Amount) :
    Item → Except AmountFault Amount
  | .amount b => op a b
  | .plain v => .error (.notCombinable a.kind.name v.kindName)

end Item

end PerfLedger
