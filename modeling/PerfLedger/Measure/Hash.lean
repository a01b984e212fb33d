import PerfLedger.Measure.Order

/-!
# Hashes

A number is hashed by the residue of its value modulo a prime, so that the same number has one hash
however it is written. An amount is hashed by its kind and its base value; how texts and pairs of
hashes are mixed is left open.

A table of amounts looks for an amount only among the members that have its hash.
-/

namespace PerfLedger

namespace Decimal

/-- The prime modulo which numbers are hashed. -/
def hashModulus : Nat := Nat.pow 2 61 - 1

/-- The inverse of ten modulo the prime. -/
def tenInverse : Nat := 2075258708292324556

/-- The hash of positive infinity. -/
def infinityHash : Int := 314159

/-- The residue of a power of ten. -/
def powerResidue (e : Int) : Nat :=
  (if 0 ≤ e then Nat.pow 10 e.toNat else Nat.pow tenInverse (-e).toNat) % hashModulus

/-- The hash of a number. A not-a-number has none, since each is told apart from every other. A hash
of minus one is reserved, and minus two stands in its place. -/
def numericHash : Decimal → Option Int
  | .finite s n e =>
    let residue : Int := (n * powerResidue e % hashModulus : Nat)
    let h := if s then -residue else residue
    some (if h = -1 then -2 else h)
  | .infinite s => some (if s then -infinityHash else infinityHash)
  | .nan .. => none

end Decimal

/-- How texts and pairs of hashes are hashed. -/
structure Hasher where
  text : String → Int
  pair : Int → Int → Int

namespace Amount

/-- The hash of an amount, from the name of its kind and its base value. -/
def hash (h : Hasher) (a : Amount) : Except Decimal.Signal (Option Int) := do
  let x ← a.baseValue
  return x.numericHash.map (h.pair (h.text a.kind.name))

/-- Inequality. -/
def unequal (a b : Amount) : Except AmountFault Bool :=
  (a.equal b).map (!·)

/-- Whether a table has a member that has the hash of an amount and is equal to it. -/
def isFound (h : Hasher) (a : Amount) : List Amount → Except AmountFault Bool
  | [] => .ok false
  | b :: bs => do
    let i ← signaling (a.hash h)
    let j ← signaling (b.hash h)
    if i = j then (if ← a.equal b then return true else isFound h a bs) else isFound h a bs

/-- A table to which amounts are added in turn, each unless it is found. -/
def tabulate (h : Hasher) (table : List Amount) : List Amount → Except AmountFault (List Amount)
  | [] => .ok table
  | a :: as => do tabulate h (if ← a.isFound h table then table else table ++ [a]) as

end Amount

end PerfLedger
