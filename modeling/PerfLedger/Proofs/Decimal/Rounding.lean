import PerfLedger.Decimal.Arith
import PerfLedger.Proofs.Decimal.Digits
import PerfLedger.Proofs.Decimal.Text

/-!
# Results of rounding

What an operation answers fits the working precision (`FitsPrecision`): no more digits than are
kept, and an exponent in range. So it can be written as a numeral (`isRepresentable_of_fits`). Of
numbers the answer is a number (`IsAnswer`).
-/

namespace PerfLedger.Decimal

/-- A decimal that an operation can answer: it is not rounded any further. -/
def FitsPrecision : Decimal → Prop
  | .finite _ n e => n < 10 ^ precision ∧ minQuantum ≤ e ∧ e + digitCount n - 1 ≤ maxExponent
  | _ => True

theorem isRepresentable_of_fits {d : Decimal} (h : d.FitsPrecision) : d.IsRepresentable := by
  cases d with
  | finite s n e =>
    obtain ⟨-, hlow, hhigh⟩ := h
    have hpos := digitCount_pos n
    simp only [IsRepresentable, inRange, Bool.and_eq_true, decide_eq_true_eq]
    unfold minQuantum at hlow
    unfold maxExponent at hhigh
    unfold numeralMax numeralMin
    split <;> omega
  | infinite s => trivial
  | nan s q p => trivial

/-! ## The last place -/

/-- The nearest integer lies between the integers next to a quotient. -/
theorem divHalfEven_bounds (n : Nat) (d : Nat) :
    n / d ≤ divHalfEven n d ∧ divHalfEven n d ≤ n / d + 1 := by
  unfold divHalfEven
  dsimp only
  split <;> omega

/-- A number has at most 28 digits before its quantum, of which the last may be rounded up. -/
theorem coefficientAt_le {n : Nat} (hn : 0 < n) (e : Int) :
    coefficientAt n e (quantum n e) ≤ 10 ^ precision := by
  unfold coefficientAt
  dsimp only
  split
  · exact Nat.zero_le _
  · -- The last `k` digits are rounded off.
    obtain ⟨k, hk⟩ : ∃ k, k = (quantum n e - e).toNat := ⟨_, rfl⟩
    have hdigits : digitCount n ≤ precision + k := by
      have hq : e + digitCount n - precision ≤ quantum n e := by
        unfold quantum
        omega
      omega
    have hlt : n < 10 ^ precision * 10 ^ k := by
      rw [← Nat.pow_add]
      exact (digitCount_le_iff hn).mp hdigits
    have hdiv : n / 10 ^ k < 10 ^ precision := by
      rw [Nat.div_lt_iff_lt_mul (Nat.pow_pos (by decide))]
      exact hlt
    have := (divHalfEven_bounds n (10 ^ k)).2
    rw [← hk]
    show divHalfEven n (10 ^ k) ≤ _
    omega

theorem rounded_spec {n : Nat} (hn : 0 < n) (e : Int) :
    (rounded n e).1 < 10 ^ precision ∧ minQuantum ≤ (rounded n e).2 := by
  have hle := coefficientAt_le hn e
  have hq : minQuantum ≤ quantum n e := by
    unfold quantum
    omega
  unfold rounded
  dsimp only
  split
  · -- Rounding up gave a digit too many, and the last one is a zero that is dropped.
    have hcarry : Nat.pow 10 (precision - 1) < 10 ^ precision := by decide
    exact ⟨hcarry, Int.le_trans hq (Int.le_add_one (Int.le_refl _))⟩
  · next hne => exact ⟨Nat.lt_of_le_of_ne hle hne, hq⟩

theorem round_fits {s : Bool} {n : Nat} {e : Int} {d : Decimal} (h : round s n e = .ok d) :
    d.FitsPrecision := by
  unfold round at h
  split at h
  · rw [← Except.ok.inj h]
    refine ⟨by decide, ?_, ?_⟩
    · unfold zeroExponent minQuantum maxExponent
      omega
    · have h0 : digitCount 0 = 1 := by rw [digitCount]; rfl
      rw [h0]
      unfold zeroExponent minQuantum maxExponent
      omega
  · next hn =>
    obtain ⟨hlt, hlow⟩ := rounded_spec (Nat.pos_of_ne_zero hn) e
    rcases hr : rounded n e with ⟨m, q⟩
    rw [hr] at h hlt hlow
    dsimp only at h
    split at h
    · exact absurd h (by simp)
    · next hhigh =>
      rw [← Except.ok.inj h]
      exact ⟨hlt, hlow, by omega⟩

theorem nanOf?_fits {a b d : Decimal} (h : nanOf? a b = some (.ok d)) : d.FitsPrecision := by
  unfold nanOf? at h
  split at h
  · simp at h
  · simp at h
  · obtain rfl := Except.ok.inj (Option.some.inj h)
    trivial
  · obtain rfl := Except.ok.inj (Option.some.inj h)
    trivial
  · simp at h

theorem nanOf?_eq_none {a b : Decimal} :
    nanOf? a b = none ↔ a.isNaN = false ∧ b.isNaN = false := by
  cases a <;> cases b
  case nan.nan s q p t q' p' => cases q <;> cases q' <;> simp [nanOf?, isNaN]
  case nan.finite s q p _ _ _ => cases q <;> simp [nanOf?, isNaN]
  case nan.infinite s q p _ => cases q <;> simp [nanOf?, isNaN]
  case finite.nan q _ => cases q <;> simp [nanOf?, isNaN]
  case infinite.nan q _ => cases q <;> simp [nanOf?, isNaN]
  all_goals simp [nanOf?, isNaN]

theorem divNonzero_fits {s : Bool} {n m : Nat} {e f : Int} {d : Decimal}
    (h : divNonzero s n e m f = .ok d) : d.FitsPrecision := by
  unfold divNonzero at h
  dsimp only at h
  split at h
  · exact round_fits h
  · exact round_fits h

/-- A quotient fits the working precision. -/
theorem div_fits {a b d : Decimal} (h : a.div b = .ok d) : d.FitsPrecision := by
  unfold div at h
  cases hnan : nanOf? a b with
  | some x =>
    rw [hnan, Option.getD_some] at h
    exact nanOf?_fits (h ▸ hnan)
  | none =>
    rw [hnan, Option.getD_none] at h
    obtain ⟨ha, hb⟩ := nanOf?_eq_none.mp hnan
    cases a with
    | nan s q p => exact absurd ha (by simp [isNaN])
    | infinite s =>
      cases b with
      | nan t q p => exact absurd hb (by simp [isNaN])
      | infinite t => exact absurd h (by simp [divNumbers])
      | finite t m f =>
        rw [← Except.ok.inj h]
        trivial
    | finite s n e =>
      cases b with
      | nan t q p => exact absurd hb (by simp [isNaN])
      | infinite t =>
        rw [← Except.ok.inj h]
        exact ⟨by decide, Int.le_refl _, by rw [digitCount_eq_log]; decide⟩
      | finite t m f =>
        simp only [divNumbers] at h
        split at h
        · exact absurd h (by simp)
        · split at h
          · exact round_fits h
          · exact divNonzero_fits h

/-! ## Numbers -/

/-- A number that an operation can answer. -/
structure IsAnswer (d : Decimal) : Prop where
  fits : d.FitsPrecision
  number : d.isNaN = false

theorem isAnswer_infinite (s : Bool) : IsAnswer (.infinite s) :=
  ⟨trivial, rfl⟩

theorem round_isAnswer {s : Bool} {n : Nat} {e : Int} {d : Decimal} (h : round s n e = .ok d) :
    d.IsAnswer := by
  refine ⟨round_fits h, ?_⟩
  unfold round at h
  split at h
  · rw [← Except.ok.inj h]
    rfl
  · rcases hr : rounded n e with ⟨m, q⟩
    rw [hr] at h
    dsimp only at h
    split at h
    · exact absurd h (by simp)
    · rw [← Except.ok.inj h]
      rfl

section answers

variable {a b d : Decimal} (ha : a.isNaN = false) (hb : b.isNaN = false)

include ha hb

/-- The product of numbers is a number. -/
theorem mul_isAnswer (h : a.mul b = .ok d) : d.IsAnswer := by
  rw [mul, nanOf?_eq_none.mpr ⟨ha, hb⟩, Option.getD_none] at h
  have other (h : (if a.isZero || b.isZero then .error .invalidOperation
      else .ok (.infinite (a.negative ^^ b.negative))) = Except.ok (ε := Signal) d) :
      d.IsAnswer := by
    split at h
    · exact absurd h (by simp)
    · rw [← Except.ok.inj h]
      exact isAnswer_infinite _
  cases a with
  | finite s n e =>
    cases b with
    | finite t m f => exact round_isAnswer h
    | infinite t => exact other h
    | nan t q p => exact absurd hb (by simp [isNaN])
  | infinite s => exact other h
  | nan s q p => exact absurd ha (by simp [isNaN])

/-- The quotient of numbers is a number. -/
theorem div_isAnswer (h : a.div b = .ok d) : d.IsAnswer := by
  refine ⟨div_fits h, ?_⟩
  rw [div, nanOf?_eq_none.mpr ⟨ha, hb⟩, Option.getD_none] at h
  cases a with
  | finite s n e =>
    cases b with
    | finite t m f =>
      simp only [divNumbers] at h
      split at h
      · exact absurd h (by simp)
      · split at h
        · exact (round_isAnswer h).number
        · unfold divNonzero at h
          dsimp only at h
          split at h
          · exact (round_isAnswer h).number
          · exact (round_isAnswer h).number
    | infinite t =>
      rw [← Except.ok.inj h]
      rfl
    | nan t q p => exact absurd hb (by simp [isNaN])
  | infinite s =>
    cases b with
    | finite t m f =>
      rw [← Except.ok.inj h]
      rfl
    | infinite t => exact absurd h (by simp [divNumbers])
    | nan t q p => exact absurd hb (by simp [isNaN])
  | nan s q p => exact absurd ha (by simp [isNaN])

/-- The sum of numbers is a number. -/
theorem add_isAnswer (h : a.add b = .ok d) : d.IsAnswer := by
  have aligned {s t : Bool} {n k m : Nat} {f : Int} (h : addAligned s n k t m f = .ok d) :
      d.IsAnswer := by
    unfold addAligned at h
    dsimp only at h
    split at h
    · exact round_isAnswer h
    · split at h
      · exact round_isAnswer h
      · split at h
        · exact round_isAnswer h
        · exact round_isAnswer h
  have ordered {s t : Bool} {n m : Nat} {e f : Int} (h : addOrdered s n e t m f = .ok d) :
      d.IsAnswer := by
    unfold addOrdered at h
    dsimp only at h
    split at h
    · exact aligned h
    · exact aligned h
  rw [add, nanOf?_eq_none.mpr ⟨ha, hb⟩, Option.getD_none] at h
  cases a with
  | finite s n e =>
    cases b with
    | finite t m f =>
      simp only [addNumbers] at h
      split at h
      · exact ordered h
      · exact ordered h
    | infinite t =>
      rw [← Except.ok.inj h]
      exact isAnswer_infinite _
    | nan t q p => exact absurd hb (by simp [isNaN])
  | infinite s =>
    cases b with
    | finite t m f =>
      rw [← Except.ok.inj h]
      exact isAnswer_infinite _
    | infinite t =>
      simp only [addNumbers] at h
      split at h
      · rw [← Except.ok.inj h]
        exact isAnswer_infinite _
      · exact absurd h (by simp)
    | nan t q p => exact absurd hb (by simp [isNaN])
  | nan s q p => exact absurd ha (by simp [isNaN])

end answers

end PerfLedger.Decimal
