import PerfLedger.Measure.Order

/-!
# Measured operations

One measured run of a test: how long it took, how much memory it used, and the failure it ended
with, if any. The statistics of a list of operations summarise one of the two measures; those of an
empty list are zero.
-/

namespace PerfLedger

/-- One measured run of a test. -/
structure Operation where
  time : Amount := Amount.zero .duration
  memory : Amount := Amount.zero .dataAmount
  failure : Option String := none
  deriving DecidableEq, Inhabited

namespace Operation

/-- An operation that ended without a failure. -/
def isSuccessful (o : Operation) : Bool :=
  o.failure.isNone

/-- The measure of an operation. -/
def measure (o : Operation) : MeasureKind → Amount
  | .duration => o.time
  | .dataAmount => o.memory

/-- Equality of operations. No two failures are equal. -/
def equal (a b : Operation) : Except AmountFault Bool := do
  if ← a.time.equal b.time then
    if ← a.memory.equal b.memory then return a.failure.isNone && b.failure.isNone
    else return false
  else return false

end Operation

/-- A statistic of a list of operations. -/
inductive Statistic where
  | average
  | least
  | greatest
  deriving DecidableEq

namespace Statistic

/-- The sum of amounts, added in turn to a first one. -/
def total (first : Amount) : List Amount → Except AmountFault Amount
  | [] => .ok first
  | a :: as => do total (← first.add a) as

/-- The mean of amounts: their sum, from zero on, divided by their number. -/
def averageOf (k : MeasureKind) (as : List Amount) : Except AmountFault Amount :=
  if as = [] then .ok (Amount.zero k)
  else do
    let sum ← total (Amount.zero k) as
    sum.divBy (Decimal.ofNat as.length)

/-- The earliest amount that none is less than. -/
def leastOf (k : MeasureKind) : List Amount → Except AmountFault Amount
  | [] => .ok (Amount.zero k)
  | a :: as => Ranking.best (Amount.relate .less) a as

/-- The earliest amount that none is greater than. -/
def greatestOf (k : MeasureKind) : List Amount → Except AmountFault Amount
  | [] => .ok (Amount.zero k)
  | a :: as => Ranking.best (Amount.relate .greater) a as

/-- A statistic of amounts that should be of a kind. -/
def ofAmounts (s : Statistic) (k : MeasureKind) (as : List Amount) :
    Except AmountFault Amount :=
  match s with
  | .average => averageOf k as
  | .least => leastOf k as
  | .greatest => greatestOf k as

/-- A statistic of one measure of a list of operations. -/
def ofOperations (s : Statistic) (k : MeasureKind) (os : List Operation) :
    Except AmountFault Amount :=
  s.ofAmounts k (os.map fun o => o.measure k)

end Statistic

end PerfLedger
