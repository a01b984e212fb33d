import PerfLedger.Proofs.Measure.Hash

/-!
# The order of amounts

The comparisons of amounts are those of one linear order, that of rounded base values, and hashes
agree with it (`OrderLaws`). The order never contradicts that of the exact values: rounding may
merge neighbours but does not exchange them. It is the exact order of values that can be kept, and
of values that are far enough apart (`order_laws`).

That values have few digits is not enough for this: a value below the smallest place is rounded to
nothing (`equal_zero_of_tiny`).
-/

namespace PerfLedger.Amount

open Decimal

/-- Two amounts are compared as their exact values are. -/
def ComparesExactly (a b : Amount) : Prop :=
  a.equal b = .ok (compare a.exactBase b.exactBase == .eq) ∧
    ∀ r, a.relate r b = .ok (Relation.holds r (compare a.exactBase b.exactBase))

/-- What holds of the comparisons of three amounts of one kind. -/
structure OrderLaws (hasher : Hasher) (a b c : Amount) : Prop where
  /-- One of less, equal and greater holds, and the other comparisons are said in terms of them. -/
  trichotomy : ∃ o : Ordering, a.equal b = .ok (o == .eq) ∧ a.unequal b = .ok (o != .eq) ∧
    ∀ r, a.relate r b = .ok (Relation.holds r o)
  /-- The strict order is transitive. -/
  less_trans : a.relate .less b = .ok true → b.relate .less c = .ok true →
    a.relate .less c = .ok true
  /-- Equality is an equivalence. -/
  equal_refl : a.equal a = .ok true
  equal_symm : a.equal b = .ok true → b.equal a = .ok true
  equal_trans : a.equal b = .ok true → b.equal c = .ok true → a.equal c = .ok true
  /-- Equal amounts stand in the same relations. -/
  relate_congr : a.equal b = .ok true →
    ∀ r, a.relate r c = b.relate r c ∧ c.relate r a = c.relate r b
  /-- Equal amounts have one hash. -/
  hash_congr : a.equal b = .ok true →
    ∃ i, a.hash hasher = .ok (some i) ∧ b.hash hasher = .ok (some i)
  /-- The order does not contradict that of the exact values. -/
  exact_of_less : a.relate .less b = .ok true → a.exactBase < b.exactBase
  /-- Values that can be kept are compared exactly. -/
  exact_of_isKept : IsKept a.exactBase → IsKept b.exactBase → ComparesExactly a b
  /-- Values that differ by more than one part in `10 ^ 27` are compared exactly. -/
  exact_of_apart : IsNormal a.exactBase → IsNormal b.exactBase →
    10 ^ (-27 : ℤ) * max |a.exactBase| |b.exactBase| < |a.exactBase - b.exactBase| →
    ComparesExactly a b

section laws

variable {a b c : Amount} {k : MeasureKind}

theorem equal_iff (ha : a.IsComparable) (hb : b.IsComparable) (hkind : a.kind = b.kind) :
    a.equal b = .ok true ↔ a.roundedBase = b.roundedBase := by
  rw [equal_eq_decide ha hb hkind, Except.ok.injEq, decide_eq_true_iff]

theorem less_iff (ha : a.IsComparable) (hb : b.IsComparable) (hkind : a.kind = b.kind) :
    a.relate .less b = .ok true ↔ a.roundedBase < b.roundedBase := by
  rw [relate_eq ha hb hkind, Except.ok.injEq, Relation.holds, beq_iff_eq, compare_lt_iff_lt]

/-- Amounts are compared exactly if rounding does not change how their values compare. -/
theorem comparesExactly_of_compare (ha : a.IsComparable) (hb : b.IsComparable)
    (hkind : a.kind = b.kind)
    (h : compare a.roundedBase b.roundedBase = compare a.exactBase b.exactBase) :
    ComparesExactly a b := by
  rw [ComparesExactly, ← h]
  exact ⟨equal_eq ha hb hkind, relate_eq ha hb hkind⟩

/-- Values that are far enough apart are not merged by rounding. -/
theorem compare_nearest_of_apart {x y : ℚ} (hx : IsNormal x) (hy : IsNormal y)
    (h : 10 ^ (-27 : ℤ) * max |x| |y| < |x - y|) :
    compare (nearest x) (nearest y) = compare x y := by
  rw [pow_eq_two_mul_unitRoundoff] at h
  rcases le_total x y with hle | hle
  · rw [abs_of_nonpos (sub_nonpos.mpr hle), neg_sub] at h
    have hlt := nearest_lt_of_apart hx hy h
    have hne : x < y := lt_of_le_of_ne hle fun heq => hlt.ne (heq ▸ rfl)
    rw [compare_lt_iff_lt.mpr hlt, compare_lt_iff_lt.mpr hne]
  · rw [abs_of_nonneg (sub_nonneg.mpr hle), max_comm] at h
    have hlt := nearest_lt_of_apart hy hx h
    have hne : y < x := lt_of_le_of_ne hle fun heq => hlt.ne (heq ▸ rfl)
    rw [compare_gt_iff_gt.mpr hlt, compare_gt_iff_gt.mpr hne]

/--
**The order of amounts is coherent and does not contradict the exact one.**

For amounts of one kind, in whatever units and with however many digits, of which the base values do
not overflow. A set of such amounts has one member for each rounded base value, whether it compares
an amount with all its members or only with those that have its hash.
-/
theorem order_laws (hasher : Hasher) (ha : a.IsComparable) (hb : b.IsComparable)
    (hc : c.IsComparable) (hab : a.kind = b.kind) (hbc : b.kind = c.kind) :
    OrderLaws hasher a b c ∧
      ∀ (k : MeasureKind) (as : List Amount), AreComparable k as →
        Item.countDistinct (as.map .amount) = .ok (as.map roundedBase).toFinset.card ∧
        (tabulate hasher [] as).map List.length = .ok (as.map roundedBase).toFinset.card := by
  have hac : a.kind = c.kind := hab.trans hbc
  constructor
  · constructor
    case trichotomy =>
      refine ⟨compare a.roundedBase b.roundedBase, equal_eq ha hb hab, ?_, relate_eq ha hb hab⟩
      rw [unequal, equal_eq ha hb hab]
      rfl
    case less_trans =>
      rw [less_iff ha hb hab, less_iff hb hc hbc, less_iff ha hc hac]
      exact lt_trans
    case equal_refl => exact (equal_iff ha ha rfl).mpr rfl
    case equal_symm =>
      rw [equal_iff ha hb hab, equal_iff hb ha hab.symm]
      exact Eq.symm
    case equal_trans =>
      rw [equal_iff ha hb hab, equal_iff hb hc hbc, equal_iff ha hc hac]
      exact Eq.trans
    case relate_congr =>
      intro h r
      rw [equal_iff ha hb hab] at h
      rw [relate_eq ha hc hac, relate_eq hb hc hbc, relate_eq hc ha hac.symm,
        relate_eq hc hb hbc.symm, h]
      exact ⟨rfl, rfl⟩
    case hash_congr =>
      intro h
      obtain ⟨hhash, i, hi⟩ := hash_eq_of_equal ha hb hab ((equal_iff ha hb hab).mp h) hasher
      exact ⟨i, hi, hhash ▸ hi⟩
    case exact_of_less =>
      intro h
      -- Rounding is monotone, so it cannot exchange two values.
      exact lt_of_not_ge fun hle => ((less_iff ha hb hab).mp h).not_ge (nearest_mono hle)
    case exact_of_isKept =>
      intro hka hkb
      refine comparesExactly_of_compare ha hb hab ?_
      rw [roundedBase, roundedBase, nearest_of_isKept hka, nearest_of_isKept hkb]
    case exact_of_apart =>
      intro hna hnb h
      exact comparesExactly_of_compare ha hb hab (compare_nearest_of_apart hna hnb h)
  · intro k as has
    exact ⟨countDistinct_amounts has, length_tabulate hasher has⟩

/-- The laws for amounts in three units, of which one has two digits too many. -/
theorem order_laws_units :
    OrderLaws ⟨fun s => s.length, fun i j => 31 * i + j⟩
        ⟨.finite false (10 ^ 29 + 1) (-26), .millisecond⟩ ⟨1, .second⟩
        ⟨.finite false 5 (-1), .minute⟩ ∧
      Amount.equal ⟨.finite false (10 ^ 29 + 1) (-26), .millisecond⟩ ⟨1, .second⟩ = .ok true ∧
      relate .less ⟨1, .second⟩ ⟨.finite false 5 (-1), .minute⟩ = .ok true := by
  have ha : IsComparable ⟨.finite false (10 ^ 29 + 1) (-26), .millisecond⟩ :=
    ⟨trivial, by decide +kernel⟩
  have hb : IsComparable ⟨1, .second⟩ := ⟨trivial, by decide +kernel⟩
  have hc : IsComparable ⟨.finite false 5 (-1), .minute⟩ := ⟨trivial, by decide +kernel⟩
  exact ⟨(order_laws _ ha hb hc rfl rfl).1, by decide +kernel, by decide +kernel⟩

/-- A value below the smallest place, of one digit, is compared as nothing. -/
theorem equal_zero_of_tiny :
    IsComparable ⟨.finite false 1 (-1000027), .millisecond⟩ ∧ IsComparable ⟨0, .millisecond⟩ ∧
      IsShort (exactBase ⟨.finite false 1 (-1000027), .millisecond⟩) ∧
      IsShort (exactBase ⟨0, .millisecond⟩) ∧
      exactBase ⟨0, .millisecond⟩ < exactBase ⟨.finite false 1 (-1000027), .millisecond⟩ ∧
      Amount.equal ⟨.finite false 1 (-1000027), .millisecond⟩ ⟨0, .millisecond⟩ = .ok true := by
  have htiny : exactBase ⟨.finite false 1 (-1000027), .millisecond⟩
      = (1 : ℤ) * 10 ^ (-1000027 : ℤ) := by
    simp [exactBase, toRat_finite, signed, MeasureUnit.factor]
  have hzero : exactBase ⟨0, .millisecond⟩ = (0 : ℤ) * 10 ^ (0 : ℤ) := by
    have hvalue : toRat 0 = 0 := toRat_ofNat 0
    simp [exactBase, hvalue]
  refine ⟨⟨trivial, by decide +kernel⟩, ⟨trivial, by decide +kernel⟩, ⟨1, _, by decide, htiny⟩,
    ⟨0, 0, by decide, hzero⟩, ?_, by decide +kernel⟩
  rw [htiny, hzero, Int.cast_zero, zero_mul, Int.cast_one, one_mul]
  exact ten_zpow_pos _

end laws

end PerfLedger.Amount
