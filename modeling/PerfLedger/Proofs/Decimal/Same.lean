import PerfLedger.Proofs.Decimal.Text

/-!
# Decimals of one value

Two decimals are the same number if they have one sign and one value, however many zeros they end
in; special numbers are only the same as themselves. A decimal with a positive exponent written out
in zeros is the same number as before (`positional_same`), so a number that was written in fixed
form is read back as the same number.
-/

namespace PerfLedger.Decimal

/-- `n · 10 ^ e` and `m · 10 ^ f` are one value, which is seen at the lower exponent. -/
def SameValue (n : Nat) (e : Int) (m : Nat) (f : Int) : Prop :=
  n * 10 ^ (e - f).toNat = m * 10 ^ (f - e).toNat

/-- The same number: of one sign and one value, or the same special number. -/
def Same : Decimal → Decimal → Prop
  | .finite s n e, .finite t m f => s = t ∧ SameValue n e m f
  | a, b => a = b

/-! ## Values -/

/-- One value is seen at any exponent that is low enough. -/
theorem sameValue_iff {n m : Nat} {e f l : Int} (he : l ≤ e) (hf : l ≤ f) :
    SameValue n e m f ↔ n * 10 ^ (e - l).toNat = m * 10 ^ (f - l).toNat := by
  obtain ⟨k, hk⟩ : ∃ k, k = (min e f - l).toNat := ⟨_, rfl⟩
  have hek : (e - l).toNat = (e - f).toNat + k := by omega
  have hfk : (f - l).toNat = (f - e).toNat + k := by omega
  rw [SameValue, hek, hfk, Nat.pow_add, Nat.pow_add, ← Nat.mul_assoc, ← Nat.mul_assoc]
  exact (Nat.mul_left_inj (Nat.ne_of_gt (Nat.pow_pos (by decide)))).symm

theorem SameValue.refl (n : Nat) (e : Int) : SameValue n e n e := rfl

theorem SameValue.symm {n m : Nat} {e f : Int} (h : SameValue n e m f) : SameValue m f n e :=
  Eq.symm h

theorem SameValue.trans {n m p : Nat} {e f g : Int} (h : SameValue n e m f)
    (h' : SameValue m f p g) : SameValue n e p g := by
  obtain ⟨l, hl⟩ : ∃ l, l = min e (min f g) := ⟨_, rfl⟩
  have he : l ≤ e := by omega
  have hf : l ≤ f := by omega
  have hg : l ≤ g := by omega
  rw [sameValue_iff he hg]
  exact ((sameValue_iff he hf).mp h).trans ((sameValue_iff hf hg).mp h')

/-- Zeros at the end are a matter of the exponent. -/
theorem sameValue_zeros (n k : Nat) (e : Int) : SameValue (n * 10 ^ k) e n (e + k) := by
  rw [sameValue_iff (Int.le_refl e) (by omega)]
  have h0 : (e - e).toNat = 0 := by omega
  have hk : (e + k - e).toNat = k := by omega
  rw [h0, hk, Nat.pow_zero, Nat.mul_one]

theorem SameValue.eq_zero_iff {n m : Nat} {e f : Int} (h : SameValue n e m f) :
    n = 0 ↔ m = 0 := by
  have hpos (k : Nat) : 10 ^ k ≠ 0 := Nat.ne_of_gt (Nat.pow_pos (by decide))
  constructor
  · intro hn
    rw [SameValue, hn, Nat.zero_mul, eq_comm, Nat.mul_eq_zero] at h
    exact h.resolve_right (hpos _)
  · intro hm
    rw [SameValue, hm, Nat.zero_mul, Nat.mul_eq_zero] at h
    exact h.resolve_right (hpos _)

/-- All zeros are one value. -/
theorem sameValue_zero (e f : Int) : SameValue 0 e 0 f := by
  rw [SameValue, Nat.zero_mul, Nat.zero_mul]

/-- Of two coefficients of one value, the one with the lower exponent ends in more zeros. -/
theorem SameValue.eq_mul {n m : Nat} {e f : Int} (h : SameValue n e m f) (hle : f ≤ e) :
    m = n * 10 ^ (e - f).toNat ∧ e = f + ((e - f).toNat : Int) := by
  have hf : (f - e).toNat = 0 := by omega
  rw [SameValue, hf, Nat.pow_zero, Nat.mul_one] at h
  exact ⟨h.symm, by omega⟩

/-! ## Numbers -/

theorem Same.refl (a : Decimal) : Same a a := by
  cases a with
  | finite s n e => exact ⟨rfl, .refl n e⟩
  | infinite s => rfl
  | nan s q p => rfl

theorem Same.symm {a b : Decimal} (h : Same a b) : Same b a := by
  cases a <;> cases b
  case finite.finite => exact ⟨h.1.symm, h.2.symm⟩
  all_goals exact Eq.symm h

theorem Same.trans {a b c : Decimal} (h : Same a b) (h' : Same b c) : Same a c := by
  cases a <;> cases b <;> cases c
  case finite.finite.finite => exact ⟨h.1.trans h'.1, h.2.trans h'.2⟩
  all_goals simp_all [Same]

theorem Same.of_finite {s : Bool} {n : Nat} {e : Int} {b : Decimal} (h : Same (.finite s n e) b) :
    ∃ m f, b = .finite s m f ∧ SameValue n e m f := by
  cases b with
  | finite t m f =>
    obtain ⟨rfl, hv⟩ := h
    exact ⟨m, f, rfl, hv⟩
  | infinite t => exact absurd h (by simp [Same])
  | nan t q p => exact absurd h (by simp [Same])

theorem Same.of_infinite {s : Bool} {b : Decimal} (h : Same (.infinite s) b) : b = .infinite s := by
  cases b <;> exact Eq.symm h

theorem Same.of_nan {s q : Bool} {p : Nat} {b : Decimal} (h : Same (.nan s q p) b) :
    b = .nan s q p := by
  cases b <;> exact Eq.symm h

/-- Decimals that are the same number are finite numbers of one value, or one decimal. -/
theorem Same.finite_or_eq {a b : Decimal} (h : Same a b) :
    (∃ s n e m f, a = .finite s n e ∧ b = .finite s m f ∧ SameValue n e m f) ∨ a = b := by
  cases a with
  | finite s n e =>
    obtain ⟨m, f, hb, hv⟩ := h.of_finite
    exact .inl ⟨s, n, e, m, f, rfl, hb, hv⟩
  | infinite s => exact .inr h.of_infinite.symm
  | nan s q p => exact .inr h.of_nan.symm

/-- **Writing a positive exponent out in zeros does not change the number.** -/
theorem positional_same (d : Decimal) : Same d.positional d := by
  cases d with
  | finite s n e =>
    by_cases he : e ≤ 0
    · rw [positional, if_pos he]
      exact .refl _
    · rw [positional, if_neg he]
      have hzeros := sameValue_zeros n e.toNat 0
      have hexp : (0 : Int) + (e.toNat : Int) = e := by omega
      rw [hexp] at hzeros
      exact ⟨rfl, hzeros⟩
  | infinite s => exact .refl _
  | nan s q p => exact .refl _

end PerfLedger.Decimal
