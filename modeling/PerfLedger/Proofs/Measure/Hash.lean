import Mathlib.Data.Finset.Card
import Mathlib.Data.Finset.Dedup
import Mathlib.Data.Int.ModEq
import PerfLedger.Proofs.Measure.Exact

/-!
# Hashes and sets of amounts

Numbers of one value have one hash (`numericHash_eq`): a power of ten that is moved from the
exponent to the coefficient is the same residue in both places (`powerResidue_add`). So equal
amounts have one hash (`hash_eq_of_equal`), and a table that looks for an amount among the members
with its hash finds all that are equal to it.

A set of amounts, by hash or by equality alone, therefore has one member for each rounded base value
(`length_tabulate`, `countDistinct_amounts`).
-/

namespace PerfLedger

namespace Decimal

/-! ## Residues -/

theorem ten_mul_tenInverse : tenInverse * 10 ≡ 1 [MOD hashModulus] := by
  decide

theorem powerResidue_succ (e : Int) :
    powerResidue (e + 1) ≡ powerResidue e * 10 [MOD hashModulus] := by
  unfold powerResidue
  rcases Int.lt_or_le e 0 with he | he
  · -- One factor less of the inverse is one factor more of ten.
    have hsplit : (-e).toNat = (-(e + 1)).toNat + 1 := by omega
    have hpower : Nat.pow tenInverse (-(e + 1)).toNat =
        (if 0 ≤ e + 1 then Nat.pow 10 (e + 1).toNat
          else Nat.pow tenInverse (-(e + 1)).toNat) := by
      split
      · next h =>
        obtain rfl : e = -1 := by omega
        rfl
      · rfl
    rw [← hpower, if_neg (by omega), hsplit]
    refine (Nat.mod_modEq _ _).trans ?_
    refine Nat.ModEq.trans ?_ ((Nat.mod_modEq _ _).mul_right 10).symm
    have hone := (ten_mul_tenInverse.mul_left (Nat.pow tenInverse (-(e + 1)).toNat)).symm
    rwa [Nat.mul_one, ← Nat.mul_assoc] at hone
  · have hsplit : (e + 1).toNat = e.toNat + 1 := by omega
    rw [if_pos (by omega), if_pos he, hsplit]
    exact (Nat.mod_modEq _ _).trans ((Nat.mod_modEq _ _).mul_right 10).symm

theorem powerResidue_add (e : Int) (k : Nat) :
    powerResidue (e + k) ≡ powerResidue e * 10 ^ k [MOD hashModulus] := by
  induction k with
  | zero => simpa using Nat.ModEq.refl _
  | succ k ih =>
    have hsucc : e + ((k + 1 : Nat) : Int) = e + k + 1 := by omega
    rw [hsucc, Nat.pow_succ, ← Nat.mul_assoc]
    exact (powerResidue_succ (e + k)).trans (ih.mul_right 10)

/-- Coefficients of one value have one residue. -/
theorem residue_congr {n m : Nat} {e f : Int} (h : SameValue n e m f) :
    n * powerResidue e % hashModulus = m * powerResidue f % hashModulus := by
  have lower {n m : Nat} {e f : Int} (h : SameValue n e m f) (hle : f ≤ e) :
      n * powerResidue e ≡ m * powerResidue f [MOD hashModulus] := by
    obtain ⟨hm, he⟩ := h.eq_mul hle
    have hpower := (powerResidue_add f (e - f).toNat).mul_left n
    rw [← he] at hpower
    rwa [hm, Nat.mul_assoc, Nat.mul_comm (10 ^ _)]
  rcases Int.le_total f e with hle | hle
  · exact lower h hle
  · exact (lower h.symm hle).symm

/-- **Numbers of one value have one hash**, zeros of either sign too. -/
theorem numericHash_eq {a b : Decimal} (ha : a.IsFinite) (hb : b.IsFinite)
    (h : a.toRat = b.toRat) : a.numericHash = b.numericHash ∧ ∃ i, a.numericHash = some i := by
  obtain ⟨s, n, e, rfl⟩ := ha.exists_eq
  obtain ⟨t, m, f, rfl⟩ := hb.exists_eq
  refine ⟨?_, _, rfl⟩
  have habs := congrArg (|·|) h
  rw [abs_toRat_finite, abs_toRat_finite] at habs
  have hvalue : SameValue n e m f := sameValue_iff_eq.mpr habs
  simp only [numericHash, residue_congr hvalue]
  rcases Nat.eq_zero_or_pos m with rfl | hm
  · simp
  · -- Signs of numbers that are not zero cannot differ.
    have hpos := coefficient_pos hm f
    rw [toRat_finite, toRat_finite, habs] at h
    have hsign : s = t := by
      cases s <;> cases t <;> simp only [signed, if_true, Bool.false_eq_true, if_false] at h
      · rfl
      · linarith
      · linarith
      · rfl
    rw [hsign]

end Decimal

/-! ## Members in turn -/

/-- A list to which members are added in turn, each unless there is one with its key. -/
def distinctOnto {α β : Type} [DecidableEq β] (key : α → β) (members : List α) :
    List α → List α
  | [] => members
  | a :: as =>
    distinctOnto key (if key a ∈ members.map key then members else members ++ [a]) as

section distinct

variable {α β : Type} [DecidableEq β] {key : α → β}

theorem distinctOnto_keys (members as : List α) (h : (members.map key).Nodup) :
    ((distinctOnto key members as).map key).Nodup ∧
      ((distinctOnto key members as).map key).toFinset
        = (members.map key).toFinset ∪ (as.map key).toFinset := by
  induction as generalizing members with
  | nil => exact ⟨h, by simp [distinctOnto]⟩
  | cons a as ih =>
    unfold distinctOnto
    split
    · next hmem =>
      obtain ⟨hnodup, hkeys⟩ := ih members h
      refine ⟨hnodup, ?_⟩
      rw [hkeys, List.map_cons, List.toFinset_cons, Finset.union_insert,
        Finset.insert_eq_self.mpr (Finset.mem_union_left _ (List.mem_toFinset.mpr hmem))]
    · next hmem =>
      have hnew : ((members ++ [a]).map key).Nodup := by
        rw [List.map_append, List.map_singleton, ← List.concat_eq_append]
        exact h.concat hmem
      obtain ⟨hnodup, hkeys⟩ := ih _ hnew
      refine ⟨hnodup, ?_⟩
      rw [hkeys, List.map_append, List.toFinset_append, Finset.union_assoc, List.map_singleton,
        List.map_cons, List.toFinset_cons, List.toFinset_cons, List.toFinset_nil,
        insert_empty_eq, Finset.singleton_union]

/-- One member is left for each key. -/
theorem length_distinctOnto (as : List α) :
    (distinctOnto key [] as).length = (as.map key).toFinset.card := by
  have hnil : (([] : List α).map key).Nodup := List.nodup_nil
  obtain ⟨hnodup, hkeys⟩ := distinctOnto_keys [] as hnil
  rw [← List.length_map (f := key), ← List.toFinset_card_of_nodup hnodup, hkeys, List.map_nil,
    List.toFinset_nil, Finset.empty_union]

end distinct

/-! ## Amounts -/

namespace Amount

variable {a b : Amount} {k : MeasureKind}

theorem hash_eq {x : Decimal} (hx : a.baseValue = .ok x) (hasher : Hasher) :
    a.hash hasher = .ok (x.numericHash.map (hasher.pair (hasher.text a.kind.name))) := by
  rw [hash, hx]
  rfl

/-- **Equal amounts have one hash.** -/
theorem hash_eq_of_equal (ha : a.IsComparable) (hb : b.IsComparable) (hkind : a.kind = b.kind)
    (h : a.roundedBase = b.roundedBase) (hasher : Hasher) :
    a.hash hasher = b.hash hasher ∧ ∃ i, a.hash hasher = .ok (some i) := by
  obtain ⟨x, hx, hxf, hxv⟩ := ha.exists_baseValue
  obtain ⟨y, hy, hyf, hyv⟩ := hb.exists_baseValue
  obtain ⟨heq, i, hi⟩ := Decimal.numericHash_eq hxf hyf (by rw [hxv, hyv, h])
  rw [hash_eq hx, hash_eq hy, hkind, ← heq, hi]
  exact ⟨rfl, _, rfl⟩

/-- Amounts of one kind that can be compared. -/
def AreComparable (k : MeasureKind) (as : List Amount) : Prop :=
  ∀ a ∈ as, a.kind = k ∧ a.IsComparable

theorem AreComparable.nil : AreComparable k [] := by
  intro a ha
  exact absurd ha List.not_mem_nil

theorem AreComparable.cons_iff {as : List Amount} :
    AreComparable k (a :: as) ↔ (a.kind = k ∧ a.IsComparable) ∧ AreComparable k as :=
  List.forall_mem_cons

theorem AreComparable.concat {as : List Amount} (h : AreComparable k as)
    (ha : a.kind = k ∧ a.IsComparable) : AreComparable k (as ++ [a]) := by
  intro x hx
  rcases List.mem_append.mp hx with hx | hx
  · exact h x hx
  · exact List.mem_singleton.mp hx ▸ ha

/-- An amount is found in a table if there is a member of its rounded base value. -/
theorem isFound_eq (hasher : Hasher) (ha : a.kind = k ∧ a.IsComparable) {table : List Amount}
    (h : AreComparable k table) :
    a.isFound hasher table = .ok (decide (a.roundedBase ∈ table.map roundedBase)) := by
  induction table with
  | nil => simp [isFound]
  | cons b bs ih =>
    obtain ⟨hb, hbs⟩ := AreComparable.cons_iff.mp h
    have hkind : a.kind = b.kind := ha.1.trans hb.1.symm
    obtain ⟨-, i, hi⟩ := hash_eq_of_equal ha.2 ha.2 rfl rfl hasher
    obtain ⟨-, j, hj⟩ := hash_eq_of_equal hb.2 hb.2 rfl rfl hasher
    simp only [isFound, hi, hj, equal_eq_decide ha.2 hb.2 hkind, ih hbs, signaling, Except.mapError,
      bind, Except.bind, pure, Except.pure, List.map_cons, List.mem_cons]
    by_cases heq : a.roundedBase = b.roundedBase
    · have hhash := (hash_eq_of_equal ha.2 hb.2 hkind heq hasher).1
      rw [hi, hj] at hhash
      simp [Except.ok.inj hhash, heq]
    · simp [heq]

theorem tabulate_eq (hasher : Hasher) {table as : List Amount} (htable : AreComparable k table)
    (has : AreComparable k as) :
    tabulate hasher table as = .ok (distinctOnto roundedBase table as) := by
  induction as generalizing table with
  | nil => rfl
  | cons a as ih =>
    obtain ⟨ha, has⟩ := AreComparable.cons_iff.mp has
    simp only [tabulate, isFound_eq hasher ha htable, bind, Except.bind, decide_eq_true_eq,
      distinctOnto]
    split
    · exact ih htable has
    · exact ih (htable.concat ha) has

/-- **A table has one member for each rounded base value.** -/
theorem length_tabulate (hasher : Hasher) {as : List Amount} (h : AreComparable k as) :
    (tabulate hasher [] as).map List.length = .ok (as.map roundedBase).toFinset.card := by
  rw [tabulate_eq hasher .nil h]
  exact congrArg Except.ok (length_distinctOnto as)

/-! ## Items -/

theorem isMember_eq (ha : a.kind = k ∧ a.IsComparable) {members : List Amount}
    (h : AreComparable k members) :
    Item.isMember (.amount a) (members.map .amount)
      = .ok (decide (a.roundedBase ∈ members.map roundedBase)) := by
  induction members with
  | nil => simp [Item.isMember]
  | cons b bs ih =>
    obtain ⟨hb, hbs⟩ := AreComparable.cons_iff.mp h
    simp only [List.map_cons, Item.isMember, Item.equal,
      equal_eq_decide ha.2 hb.2 (ha.1.trans hb.1.symm), ih hbs, bind, Except.bind, pure,
      Except.pure, List.mem_cons]
    by_cases heq : a.roundedBase = b.roundedBase
    · simp [heq]
    · simp [heq]

theorem checkHashable_amount (h : a.IsComparable) : Item.checkHashable (.amount a) = .ok () := by
  obtain ⟨x, hx, -⟩ := h.exists_baseValue
  rw [Item.checkHashable, hx]
  rfl

theorem addDistinct_eq {members as : List Amount} (hmembers : AreComparable k members)
    (has : AreComparable k as) :
    Item.addDistinct (members.map .amount) (as.map .amount)
      = .ok ((distinctOnto roundedBase members as).map .amount) := by
  induction as generalizing members with
  | nil => rfl
  | cons a as ih =>
    obtain ⟨ha, has⟩ := AreComparable.cons_iff.mp has
    simp only [List.map_cons, Item.addDistinct, checkHashable_amount ha.2,
      isMember_eq ha hmembers, bind, Except.bind, decide_eq_true_eq, distinctOnto]
    split
    · exact ih hmembers has
    · have hconcat := ih (hmembers.concat ha) has
      rwa [List.map_append] at hconcat

/-- **A set of amounts has one member for each rounded base value.** -/
theorem countDistinct_amounts {as : List Amount} (h : AreComparable k as) :
    Item.countDistinct (as.map .amount) = .ok (as.map roundedBase).toFinset.card := by
  have hadd := addDistinct_eq .nil h
  rw [List.map_nil] at hadd
  rw [Item.countDistinct, hadd]
  exact congrArg Except.ok ((List.length_map _).trans (length_distinctOnto as))

end Amount

end PerfLedger
