import PerfLedger.Decimal.Order
import PerfLedger.Proofs.Decimal.Sum

/-!
# Arithmetic and order of decimals of one value

Operations do not see with how many zeros their operands are written: sums, products, and quotients
of decimals of one value are alike (`add_congr`, `mul_congr`, `div_congr`), and comparisons answer
the same (`equal_congr`, `less_congr`).
-/

namespace PerfLedger.Decimal

/-! ## Not-a-numbers -/

theorem Same.isNaN_eq {a b : Decimal} (h : Same a b) : a.isNaN = b.isNaN := by
  rcases h.finite_or_eq with ⟨s, n, e, m, f, rfl, rfl, -⟩ | rfl
  · rfl
  · rfl

theorem Same.isSignaling_eq {a b : Decimal} (h : Same a b) : a.isSignaling = b.isSignaling := by
  rcases h.finite_or_eq with ⟨s, n, e, m, f, rfl, rfl, -⟩ | rfl
  · rfl
  · rfl

theorem Same.negative_eq {a b : Decimal} (h : Same a b) : a.negative = b.negative := by
  rcases h.finite_or_eq with ⟨s, n, e, m, f, rfl, rfl, -⟩ | rfl
  · rfl
  · rfl

theorem Same.isZero_eq {a b : Decimal} (h : Same a b) : a.isZero = b.isZero := by
  rcases h.finite_or_eq with ⟨s, n, e, m, f, rfl, rfl, hv⟩ | rfl
  · rw [isZero, isZero, Bool.eq_iff_iff, beq_iff_eq, beq_iff_eq]
    exact hv.eq_zero_iff
  · rfl

theorem nanOf?_congr {a a' b b' : Decimal} (ha : Same a a') (hb : Same b b') :
    nanOf? a b = nanOf? a' b' := by
  -- One operand after the other: a finite number is seen by neither match.
  have left (b : Decimal) : nanOf? a b = nanOf? a' b := by
    rcases ha.finite_or_eq with ⟨s, n, e, m, f, rfl, rfl, -⟩ | rfl
    · cases b with
      | nan t q p => cases q <;> rfl
      | finite t k g => rfl
      | infinite t => rfl
    · rfl
  have right (a : Decimal) : nanOf? a b = nanOf? a b' := by
    rcases hb.finite_or_eq with ⟨s, n, e, m, f, rfl, rfl, -⟩ | rfl
    · cases a with
      | nan t q p => cases q <;> rfl
      | finite t k g => rfl
      | infinite t => rfl
    · rfl
  exact (left b).trans (right a')

/-- An operation on numbers, with not-a-numbers taken out before it. -/
theorem getD_congr {a a' b b' : Decimal} (ha : Same a a') (hb : Same b b')
    {x y : Except Signal Decimal} (h : Alike x y) :
    Alike ((nanOf? a b).getD x) ((nanOf? a' b').getD y) := by
  rw [nanOf?_congr ha hb]
  cases nanOf? a' b' with
  | none => exact h
  | some z => exact .refl z

/-! ## Sum and product -/

theorem add_congr {a a' b b' : Decimal} (ha : Same a a') (hb : Same b b') :
    Alike (a.add b) (a'.add b') :=
  getD_congr ha hb (addNumbers_congr ha hb)

theorem SameValue.mul {n n' m m' : Nat} {e e' f f' : Int} (h : SameValue n e n' e')
    (h' : SameValue m f m' f') : SameValue (n * m) (e + f) (n' * m') (e' + f') := by
  obtain ⟨l, hl⟩ : ∃ l, l = min e e' := ⟨_, rfl⟩
  obtain ⟨l', hl'⟩ : ∃ l', l' = min f f' := ⟨_, rfl⟩
  have hsplit {a b : Int} (ha : l ≤ a) (hb : l' ≤ b) :
      (a + b - (l + l')).toNat = (a - l).toNat + (b - l').toNat := by omega
  have h := (sameValue_iff (l := l) (by omega) (by omega)).mp h
  have h' := (sameValue_iff (l := l') (by omega) (by omega)).mp h'
  rw [sameValue_iff (l := l + l') (by omega) (by omega), hsplit (by omega) (by omega),
    hsplit (by omega) (by omega), Nat.pow_add, Nat.pow_add, Nat.mul_mul_mul_comm,
    Nat.mul_mul_mul_comm n', h, h']

theorem mulNumbers_congr {a a' b b' : Decimal} (ha : Same a a') (hb : Same b b') :
    Alike (mulNumbers a b) (mulNumbers a' b') := by
  have other : Alike
      (if a.isZero || b.isZero then .error .invalidOperation
        else .ok (.infinite (a.negative ^^ b.negative)))
      (if a'.isZero || b'.isZero then .error .invalidOperation
        else .ok (.infinite (a'.negative ^^ b'.negative))) := by
    rw [ha.isZero_eq, hb.isZero_eq, ha.negative_eq, hb.negative_eq]
    exact .refl _
  cases a with
  | finite s n e =>
    obtain ⟨n', e', rfl, hn⟩ := ha.of_finite
    cases b with
    | finite t m f =>
      obtain ⟨m', f', rfl, hm⟩ := hb.of_finite
      exact round_congr _ (hn.mul hm)
    | infinite t =>
      obtain rfl := hb.of_infinite
      exact other
    | nan t q p =>
      obtain rfl := hb.of_nan
      exact other
  | infinite s =>
    obtain rfl := ha.of_infinite
    exact other
  | nan s q p =>
    obtain rfl := ha.of_nan
    exact other

theorem mul_congr {a a' b b' : Decimal} (ha : Same a a') (hb : Same b b') :
    Alike (a.mul b) (a'.mul b') :=
  getD_congr ha hb (mulNumbers_congr ha hb)

/-! ## Quotient -/

/-- Dividing zeros off keeps the value. -/
theorem stripZeros_sameValue (n : Nat) (e : Int) (k : Nat) :
    SameValue (stripZeros n e k).1 (stripZeros n e k).2 n e := by
  induction k generalizing n e with
  | zero => exact .refl n e
  | succ k ih =>
    unfold stripZeros
    split
    · next h =>
      have hn : n / 10 * 10 ^ 1 = n := by omega
      have hzero := sameValue_zeros (n / 10) 1 e
      rw [hn] at hzero
      exact (ih (n / 10) (e + 1)).trans hzero.symm
    · exact .refl n e

theorem divNonzero_eq (s : Bool) (n m : Nat) (e f : Int) {u : Int}
    (hu : (digitCount m : Int) - digitCount n + precision + 1 = u) :
    divNonzero s n e m f =
      if n * 10 ^ u.toNat % (m * 10 ^ (-u).toNat) = 0 then
        round s (stripZeros (n * 10 ^ u.toNat / (m * 10 ^ (-u).toNat)) (e - f - u) u.toNat).1
          (stripZeros (n * 10 ^ u.toNat / (m * 10 ^ (-u).toNat)) (e - f - u) u.toNat).2
      else round s (10 * (n * 10 ^ u.toNat / (m * 10 ^ (-u).toNat)) + 1) (e - f - u - 1) := by
  subst hu
  rfl

/-- Zeros at the end of the numerator shift the quotient. -/
theorem divNonzero_mul_pow (s : Bool) {n m : Nat} (hn : 0 < n) (k : Nat) (e f : Int) :
    Alike (divNonzero s (n * 10 ^ k) e m f) (divNonzero s n (e + k) m f) := by
  obtain ⟨u, hu⟩ : ∃ u, u = (digitCount m : Int) - digitCount n + precision + 1 := ⟨_, rfl⟩
  -- The shift is shorter by the zeros, and both sides of the division gain a factor `10 ^ c`.
  obtain ⟨c, hc⟩ : ∃ c, c = k + (u - k).toNat - u.toNat := ⟨_, rfl⟩
  have hpos : 0 < 10 ^ c := Nat.pow_pos (by decide)
  have hshift : (digitCount m : Int) - digitCount (n * 10 ^ k) + precision + 1 = u - k := by
    rw [digitCount_mul_pow hn]
    omega
  have hx : n * 10 ^ k * 10 ^ (u - k).toNat = n * 10 ^ u.toNat * 10 ^ c := by
    rw [Nat.mul_assoc, Nat.mul_assoc, ← Nat.pow_add, ← Nat.pow_add]
    congr 2
    omega
  have hy : m * 10 ^ (-(u - k)).toNat = m * 10 ^ (-u).toNat * 10 ^ c := by
    rw [Nat.mul_assoc, ← Nat.pow_add]
    congr 2
    omega
  have hdiv : n * 10 ^ k * 10 ^ (u - k).toNat / (m * 10 ^ (-(u - k)).toNat)
      = n * 10 ^ u.toNat / (m * 10 ^ (-u).toNat) := by
    rw [hx, hy, Nat.mul_div_mul_right _ _ hpos]
  have hmod : n * 10 ^ k * 10 ^ (u - k).toNat % (m * 10 ^ (-(u - k)).toNat) = 0 ↔
      n * 10 ^ u.toNat % (m * 10 ^ (-u).toNat) = 0 := by
    rw [hx, hy, Nat.mul_mod_mul_right, Nat.mul_eq_zero, or_iff_left (Nat.ne_of_gt hpos)]
  have hexp : e - f - (u - k) = e + k - f - u := by omega
  rw [divNonzero_eq s _ m e f hshift, divNonzero_eq s n m _ f hu.symm, hdiv, hexp]
  by_cases hz : n * 10 ^ u.toNat % (m * 10 ^ (-u).toNat) = 0
  · rw [if_pos (hmod.mpr hz), if_pos hz]
    exact round_congr s ((stripZeros_sameValue _ _ _).trans (stripZeros_sameValue _ _ _).symm)
  · rw [if_neg fun h => hz (hmod.mp h), if_neg hz]
    exact .refl _

theorem divNonzero_congr (s : Bool) {n n' m : Nat} {e e' f : Int} (hn : n ≠ 0)
    (h : SameValue n e n' e') : Alike (divNonzero s n e m f) (divNonzero s n' e' m f) := by
  have scaled {n n' : Nat} {e e' : Int} (hn : n ≠ 0) (h : SameValue n e n' e') (hle : e' ≤ e) :
      Alike (divNonzero s n' e' m f) (divNonzero s n e m f) := by
    obtain ⟨hn', he⟩ := h.eq_mul hle
    rw [hn']
    conv in divNonzero s n e m f => rw [he]
    exact divNonzero_mul_pow s (Nat.pos_of_ne_zero hn) _ e' f
  rcases Int.le_total e e' with hle | hle
  · exact scaled (fun hn' => hn (h.eq_zero_iff.mpr hn')) h.symm hle
  · exact (scaled hn h hle).symm

theorem divNumbers_congr {a a' : Decimal} (ha : Same a a') (b : Decimal) :
    Alike (divNumbers a b) (divNumbers a' b) := by
  cases a with
  | finite s n e =>
    obtain ⟨n', e', rfl, hn⟩ := ha.of_finite
    cases b with
    | finite t m f =>
      unfold divNumbers
      dsimp only
      by_cases hm : m = 0
      · rw [if_pos hm, if_pos hm]
        by_cases hz : n = 0
        · rw [if_pos hz, if_pos (hn.eq_zero_iff.mp hz)]
          exact .refl _
        · rw [if_neg hz, if_neg fun hz' => hz (hn.eq_zero_iff.mpr hz')]
          exact .refl _
      · rw [if_neg hm, if_neg hm]
        by_cases hz : n = 0
        · rw [if_pos hz, if_pos (hn.eq_zero_iff.mp hz)]
          exact round_congr _ (sameValue_zero _ _)
        · rw [if_neg hz, if_neg fun hz' => hz (hn.eq_zero_iff.mpr hz')]
          exact divNonzero_congr _ hz hn
    | infinite t => exact .refl _
    | nan t q p => exact .ok ha
  | infinite s =>
    rw [ha.of_infinite]
    exact .refl _
  | nan s q p =>
    rw [ha.of_nan]
    exact .refl _

theorem div_congr {a a' : Decimal} (ha : Same a a') (b : Decimal) :
    Alike (a.div b) (a'.div b) :=
  getD_congr ha (.refl b) (divNumbers_congr ha b)

/-! ## Order -/

theorem compare_mul_right {a b c : Nat} (hc : 0 < c) : compare (a * c) (b * c) = compare a b := by
  rcases Nat.lt_trichotomy a b with h | rfl | h
  · rw [compare_lt_iff_lt.mpr h, compare_lt_iff_lt.mpr (Nat.mul_lt_mul_of_pos_right h hc)]
  · rw [compare_eq_iff_eq.mpr rfl, compare_eq_iff_eq.mpr rfl]
  · rw [compare_gt_iff_gt.mpr h, compare_gt_iff_gt.mpr (Nat.mul_lt_mul_of_pos_right h hc)]

/-- A number with a lower leading digit is less. -/
theorem lt_of_digitCount_lt {n m : Nat} {e f l : Int} (hm : 0 < m) (he : l ≤ e) (hf : l ≤ f)
    (h : e + digitCount n < f + digitCount m) :
    n * 10 ^ (e - l).toNat < m * 10 ^ (f - l).toNat := by
  have hd := digitCount_pos m
  calc n * 10 ^ (e - l).toNat
      < 10 ^ digitCount n * 10 ^ (e - l).toNat :=
        Nat.mul_lt_mul_of_pos_right (lt_pow_digitCount n) (Nat.pow_pos (by decide))
    _ = 10 ^ (digitCount n + (e - l).toNat) := (Nat.pow_add ..).symm
    _ ≤ 10 ^ (digitCount m - 1 + (f - l).toNat) := Nat.pow_le_pow_right (by decide) (by omega)
    _ = 10 ^ (digitCount m - 1) * 10 ^ (f - l).toNat := Nat.pow_add ..
    _ ≤ m * 10 ^ (f - l).toNat := Nat.mul_le_mul_right _ (pow_le_of_pos hm)

/-- The order of two magnitudes is seen at any exponent that is low enough. -/
theorem compareMagnitude_eq {n m : Nat} (hn : 0 < n) (hm : 0 < m) {e f l : Int} (he : l ≤ e)
    (hf : l ≤ f) :
    compareMagnitude n e m f = compare (n * 10 ^ (e - l).toNat) (m * 10 ^ (f - l).toNat) := by
  unfold compareMagnitude
  rw [if_neg (by omega)]
  by_cases hdigits : e + digitCount n ≠ f + digitCount m
  · rw [if_pos hdigits]
    -- The leading digits stand in different places.
    rcases Int.lt_or_gt_of_ne hdigits with hlt | hgt
    · rw [compare_lt_iff_lt.mpr hlt, compare_lt_iff_lt.mpr (lt_of_digitCount_lt hm he hf hlt)]
    · rw [compare_gt_iff_gt.mpr hgt, compare_gt_iff_gt.mpr (lt_of_digitCount_lt hn hf he hgt)]
  · rw [if_neg hdigits]
    obtain ⟨low, hlow⟩ : ∃ low, low = min e f := ⟨_, rfl⟩
    have hen : (e - l).toNat = (e - low).toNat + (low - l).toNat := by omega
    have hfm : (f - l).toNat = (f - low).toNat + (low - l).toNat := by omega
    rw [hen, hfm, Nat.pow_add, Nat.pow_add, ← Nat.mul_assoc, ← Nat.mul_assoc,
      compare_mul_right (Nat.pow_pos (by decide)), hlow]
    rfl

theorem compareMagnitude_congr {n n' m m' : Nat} {e e' f f' : Int} (hn : 0 < n) (hm : 0 < m)
    (h : SameValue n e n' e') (h' : SameValue m f m' f') :
    compareMagnitude n e m f = compareMagnitude n' e' m' f' := by
  have hn' : 0 < n' := Nat.pos_of_ne_zero fun hz => by
    have := h.eq_zero_iff.mpr hz
    omega
  have hm' : 0 < m' := Nat.pos_of_ne_zero fun hz => by
    have := h'.eq_zero_iff.mpr hz
    omega
  obtain ⟨l, hl⟩ : ∃ l, l = min (min e e') (min f f') := ⟨_, rfl⟩
  rw [compareMagnitude_eq (l := l) hn hm (by omega) (by omega),
    compareMagnitude_eq (l := l) hn' hm' (by omega) (by omega),
    (sameValue_iff (by omega) (by omega)).mp h, (sameValue_iff (by omega) (by omega)).mp h']

theorem compareNumbers_congr {a a' b b' : Decimal} (ha : Same a a') (hb : Same b b') :
    compareNumbers a b = compareNumbers a' b' := by
  cases a with
  | finite s n e =>
    obtain ⟨n', e', rfl, hn⟩ := ha.of_finite
    cases b with
    | finite t m f =>
      obtain ⟨m', f', rfl, hm⟩ := hb.of_finite
      unfold compareNumbers
      simp only [← hn.eq_zero_iff, ← hm.eq_zero_iff]
      by_cases hz : n = 0
      · simp only [hz, true_and, if_true]
      · by_cases hz' : m = 0
        · simp only [hz', and_true, if_true]
        · have hn0 : 0 < n := Nat.pos_of_ne_zero hz
          have hm0 : 0 < m := Nat.pos_of_ne_zero hz'
          rw [compareMagnitude_congr hn0 hm0 hn hm, compareMagnitude_congr hm0 hn0 hm hn]
    | infinite t =>
      rw [hb.of_infinite]
      rfl
    | nan t q p =>
      rw [hb.of_nan]
      rfl
  | infinite s =>
    rw [ha.of_infinite]
    cases b with
    | finite t m f =>
      obtain ⟨m', f', rfl, -⟩ := hb.of_finite
      rfl
    | infinite t => rw [hb.of_infinite]
    | nan t q p => rw [hb.of_nan]
  | nan s q p =>
    rw [ha.of_nan]
    cases b with
    | finite t m f =>
      obtain ⟨m', f', rfl, -⟩ := hb.of_finite
      rfl
    | infinite t => rw [hb.of_infinite]
    | nan t q p => rw [hb.of_nan]

theorem equal_congr {a a' b b' : Decimal} (ha : Same a a') (hb : Same b b') :
    a.equal b = a'.equal b' := by
  rw [equal, equal, ha.isSignaling_eq, hb.isSignaling_eq, ha.isNaN_eq, hb.isNaN_eq,
    compareNumbers_congr ha hb]

theorem less_congr {a a' b b' : Decimal} (ha : Same a a') (hb : Same b b') :
    a.less b = a'.less b' := by
  rw [less, less, ha.isNaN_eq, hb.isNaN_eq, compareNumbers_congr ha hb]

theorem compareNumbers_self (a : Decimal) : compareNumbers a a = .eq := by
  cases a with
  | finite s n e =>
    unfold compareNumbers
    by_cases hn : n = 0
    · simp [hn]
    · have hmag : compareMagnitude n e n e = .eq := by
        have hn0 : 0 < n := Nat.pos_of_ne_zero hn
        rw [compareMagnitude_eq hn0 hn0 (Int.le_refl e) (Int.le_refl e), compare_eq_iff_eq]
      simp [hn, hmag]
  | infinite s => simp [compareNumbers]
  | nan s q p => rfl

/-- **Decimals of one value are equal.** -/
theorem equal_of_same {a b : Decimal} (h : Same a b) (hnan : a.isNaN = false) :
    a.equal b = .ok true := by
  have hsig : a.isSignaling = false := by
    cases a with
    | nan s q p => exact absurd hnan (by simp [isNaN])
    | finite s n e => rfl
    | infinite s => rfl
  rw [equal_congr (.refl a) h.symm, equal, hsig, hnan, compareNumbers_self]
  rfl

/-! ## One -/

/-- **Multiplying an answer by one does not change it.** -/
theorem mul_one {d : Decimal} (h : d.IsAnswer) : Alike (d.mul (ofNat 1)) (.ok d) := by
  rw [mul, nanOf?_eq_none.mpr ⟨h.number, rfl⟩, Option.getD_none]
  cases d with
  | finite s n e =>
    show Alike (round (s ^^ false) (n * 1) (e + 0)) _
    rw [Bool.xor_false, Nat.mul_one, Int.add_zero]
    exact round_of_fits h.fits
  | infinite s =>
    show Alike (.ok (.infinite (s ^^ false))) _
    rw [Bool.xor_false]
    exact .refl _
  | nan s q p => exact absurd h.number (by simp [isNaN])

/-- **Dividing an answer by one does not change it.** -/
theorem div_one {d : Decimal} (h : d.IsAnswer) : Alike (d.div (ofNat 1)) (.ok d) := by
  rw [div, nanOf?_eq_none.mpr ⟨h.number, rfl⟩, Option.getD_none]
  cases d with
  | finite s n e =>
    show Alike (if 1 = 0 then .error (if n = 0 then .divisionUndefined else .divisionByZero)
      else if n = 0 then round (s ^^ false) 0 (e - 0) else divNonzero (s ^^ false) n e 1 0) _
    rw [if_neg (by decide), Bool.xor_false]
    split
    · next hn =>
      rw [round_zero, hn]
      exact .ok ⟨rfl, sameValue_zero _ _⟩
    · next hn =>
      -- The number is shifted to the left, divided, and has its zeros dropped again.
      refine Alike.trans ?_ (round_of_fits h.fits)
      obtain ⟨u, hu⟩ : ∃ u : Nat, (u : Int) = 1 - digitCount n + precision + 1 := by
        have hdigits : digitCount n ≤ precision :=
          (digitCount_le_iff (Nat.pos_of_ne_zero hn)).mpr h.fits.1
        exact ⟨(1 - digitCount n + precision + 1 : Int).toNat, by omega⟩
      have hone : digitCount 1 = 1 := by rw [digitCount]; rfl
      rw [divNonzero_eq s n 1 e 0 (u := u) (by rw [hone]; omega), Int.toNat_natCast,
        Int.toNat_of_nonpos (by omega : -(u : Int) ≤ 0), Nat.pow_zero, Nat.mul_one, Nat.mod_one,
        if_pos rfl, Nat.div_one]
      refine round_congr s ((stripZeros_sameValue _ _ _).trans ?_)
      have hzeros := sameValue_zeros n u (e - 0 - u)
      have hexp : e - 0 - (u : Int) + u = e := by omega
      rwa [hexp] at hzeros
  | infinite s =>
    show Alike (.ok (.infinite (s ^^ false))) _
    rw [Bool.xor_false]
    exact .refl _
  | nan s q p => exact absurd h.number (by simp [isNaN])

end PerfLedger.Decimal
