import Mathlib.Algebra.Ring.Nat
import PerfLedger.Text.Blank
import PerfLedger.Text.Digit

/-!
# Numerals

The digits of a number, as they are written and as they are read.

* `digitsValue_digits`, `digitsValue_padded`: the number is read back, with or without zeros in
  front.
* `compare_digits`: numerals of one length are in the order of their numbers.

The order of texts is the order of their lists of characters (`compare_toList`), so that what is
said here of lists serves for the texts of a column too.
-/

namespace PerfLedger.Text

/-! ## Digits -/

theorem isDigit_of_mem_digits {n : Nat} {c : Char} (h : c ∈ digits n) : c.isDigit = true :=
  Nat.isDigit_of_mem_toDigits (by decide) (by decide) h

theorem digits_ne_nil (n : Nat) : digits n ≠ [] :=
  Nat.toDigits_ne_nil

theorem length_digits_le_iff {n k : Nat} (hk : 0 < k) : (digits n).length ≤ k ↔ n < 10 ^ k :=
  Nat.length_toDigits_le_iff (by decide) hk

/-- A numeral has `k + 1` digits if the number lies between the powers of ten for them. -/
theorem length_digits_eq {n k : Nat} (hl : 10 ^ k ≤ n) (hu : n < 10 ^ (k + 1)) :
    (digits n).length = k + 1 := by
  have hle : (digits n).length ≤ k + 1 := (length_digits_le_iff (by omega)).mpr hu
  cases k with
  | zero =>
    have := List.length_pos_iff.mpr (digits_ne_nil n)
    omega
  | succ k =>
    have hgt : ¬(digits n).length ≤ k + 1 := by
      intro hc
      have := (length_digits_le_iff (by omega)).mp hc
      omega
    omega

theorem isDigit_iff {c : Char} : c.isDigit = true ↔ 0x30 ≤ c.toNat ∧ c.toNat ≤ 0x39 := by
  simp only [Char.isDigit, Bool.and_eq_true, decide_eq_true_eq]
  exact Iff.rfl

/-- A digit is not a blank. -/
theorem isBlank_of_isDigit {c : Char} (h : c.isDigit = true) : isBlank c = false := by
  have := isDigit_iff.mp h
  simp only [isBlank, isSpace, Bool.or_eq_false_iff, Bool.and_eq_false_iff, beq_eq_false_iff_ne,
    decide_eq_false_iff_not]
  omega

/-! ## Values -/

theorem digitsValue_eq (cs : List Char) : digitsValue cs = Nat.ofDigitChars 10 cs 0 := rfl

theorem digitsValue_append (cs ds : List Char) :
    digitsValue (cs ++ ds) = 10 ^ ds.length * digitsValue cs + digitsValue ds := by
  rw [digitsValue_eq, digitsValue_eq, digitsValue_eq, Nat.ofDigitChars_append,
    Nat.ofDigitChars_eq_ofDigitChars_zero]

theorem digitsValue_cons (c : Char) (cs : List Char) :
    digitsValue (c :: cs) = 10 ^ cs.length * (c.toNat - 0x30) + digitsValue cs := by
  rw [← List.singleton_append, digitsValue_append]
  simp [digitsValue]

/-- **A number is read back from its digits.** -/
@[simp] theorem digitsValue_digits (n : Nat) : digitsValue (digits n) = n :=
  Nat.ofDigitChars_ten_toDigits

theorem digitsValue_lt {cs : List Char} (h : ∀ c ∈ cs, c.isDigit = true) :
    digitsValue cs < 10 ^ cs.length := by
  induction cs with
  | nil => simp [digitsValue]
  | cons c cs ih =>
    have hc := (isDigit_iff.mp (h c List.mem_cons_self)).2
    have hcs := ih fun d hd => h d (List.mem_cons_of_mem _ hd)
    have hmul : 10 ^ cs.length * (c.toNat - 0x30) ≤ 10 ^ cs.length * 9 :=
      Nat.mul_le_mul_left _ (by omega)
    rw [digitsValue_cons, List.length_cons, Nat.pow_succ]
    omega

/-! ## Zeros in front -/

theorem length_padded {w n : Nat} (hw : 0 < w) (h : n < 10 ^ w) : (padded w n).length = w := by
  have := (length_digits_le_iff hw).mpr h
  simp only [padded, List.length_append, List.length_replicate]
  omega

theorem isDigit_of_mem_padded {w n : Nat} {c : Char} (h : c ∈ padded w n) : c.isDigit = true := by
  unfold padded at h
  rcases List.mem_append.mp h with h | h
  · rw [List.eq_of_mem_replicate h]; decide
  · exact isDigit_of_mem_digits h

@[simp] theorem digitsValue_padded (w n : Nat) : digitsValue (padded w n) = n := by
  rw [padded, digitsValue_append, digitsValue_digits, digitsValue_eq,
    Nat.ofDigitChars_replicate_zero]
  simp

/-! ## Digits of any script -/

theorem digitValue?_of_isDigit {c : Char} (h : c.isDigit = true) :
    digitValue? c = some (c.toNat - 0x30) := by
  simp [digitValue?, h]

theorem asciiDigit_eq_self {c : Char} (h : c.isDigit = true) : asciiDigit (c.toNat - 0x30) = c := by
  have := isDigit_iff.mp h
  rw [asciiDigit, show 0x30 + (c.toNat - 0x30) = c.toNat by omega, Char.ofNat_toNat]

/-! ## Order -/

/-- The lexicographic order, from its strict form. -/
theorem compareOfLessAndEq_list (cs ds : List Char) :
    compareOfLessAndEq cs ds = compare cs ds := by
  induction cs generalizing ds with
  | nil => cases ds <;> simp [compareOfLessAndEq]
  | cons c cs ih =>
    cases ds with
    | nil => simp [compareOfLessAndEq]
    | cons d ds =>
      rw [List.compare_cons_cons, ← ih]
      show _ = (compareOfLessAndEq c d).then _
      by_cases hlt : c < d
      · simp [compareOfLessAndEq, List.cons_lt_cons_iff, hlt]
      · by_cases heq : c = d
        · subst heq
          simp [compareOfLessAndEq]
        · simp [compareOfLessAndEq, List.cons_lt_cons_iff, hlt, heq]

/-- **Texts are ordered as their lists of characters.** -/
theorem compare_toList (s t : String) : compare s t = compare s.toList t.toList := by
  rw [← compareOfLessAndEq_list]
  show compareOfLessAndEq s t = _
  simp only [compareOfLessAndEq, String.lt_iff, String.toList_inj]

theorem compare_char (c d : Char) : compare c d = compare c.toNat d.toNat := by
  show compareOfLessAndEq c d = compareOfLessAndEq c.toNat d.toNat
  simp only [compareOfLessAndEq, ← Char.toNat_inj]
  rfl

/-- Texts that begin with parts of one length are ordered by these parts first. -/
theorem compare_append {cs ds : List Char} (h : cs.length = ds.length) (cs' ds' : List Char) :
    compare (cs ++ cs') (ds ++ ds') = (compare cs ds).then (compare cs' ds') := by
  induction cs generalizing ds with
  | nil =>
    rw [List.length_nil, eq_comm, List.length_eq_zero_iff] at h
    subst h; rfl
  | cons c cs ih =>
    cases ds with
    | nil => simp at h
    | cons d ds =>
      rw [List.cons_append, List.cons_append, List.compare_cons_cons, List.compare_cons_cons,
        ih (by simpa using h), Ordering.then_assoc]

theorem compare_nat_congr {a b c d : Nat} (hlt : a < b ↔ c < d) (hgt : b < a ↔ d < c) :
    compare a b = compare c d := by
  rcases Nat.lt_trichotomy a b with h | h | h
  · rw [Nat.compare_eq_lt.mpr h, Nat.compare_eq_lt.mpr (hlt.mp h)]
  · rw [Nat.compare_eq_eq.mpr h, Nat.compare_eq_eq.mpr (by omega)]
  · rw [Nat.compare_eq_gt.mpr h, Nat.compare_eq_gt.mpr (hgt.mp h)]

/-- Places: a higher digit decides before the lower ones do. -/
theorem compare_places {b m n x y : Nat} (hx : x < b) (hy : y < b) :
    compare (b * m + x) (b * n + y) = (compare m n).then (compare x y) := by
  rcases Nat.lt_trichotomy m n with h | h | h
  · have : b * (m + 1) ≤ b * n := Nat.mul_le_mul_left b h
    rw [Nat.compare_eq_lt.mpr h, Ordering.lt_then, Nat.compare_eq_lt]
    rw [Nat.mul_add] at this
    omega
  · rw [Nat.compare_eq_eq.mpr h, Ordering.eq_then, h]
    exact compare_nat_congr (by omega) (by omega)
  · have : b * (n + 1) ≤ b * m := Nat.mul_le_mul_left b h
    rw [Nat.compare_eq_gt.mpr h, Ordering.gt_then, Nat.compare_eq_gt]
    rw [Nat.mul_add] at this
    omega

/-- **Numerals of one length are ordered as their numbers.** -/
theorem compare_digits {cs ds : List Char} (hlen : cs.length = ds.length)
    (hc : ∀ c ∈ cs, c.isDigit = true) (hd : ∀ d ∈ ds, d.isDigit = true) :
    compare cs ds = compare (digitsValue cs) (digitsValue ds) := by
  induction cs generalizing ds with
  | nil =>
    rw [List.length_nil, eq_comm, List.length_eq_zero_iff] at hlen
    subst hlen; rfl
  | cons c cs ih =>
    cases ds with
    | nil => simp at hlen
    | cons d ds =>
      have hlen' : cs.length = ds.length := by simpa using hlen
      have hcs := fun x hx => hc x (List.mem_cons_of_mem _ hx)
      have hds := fun x hx => hd x (List.mem_cons_of_mem _ hx)
      have hc0 := isDigit_iff.mp (hc c List.mem_cons_self)
      have hd0 := isDigit_iff.mp (hd d List.mem_cons_self)
      -- The first digits are compared first, and they stand in the highest place.
      rw [List.compare_cons_cons, ih hlen' hcs hds, digitsValue_cons, digitsValue_cons, hlen',
        compare_places (hlen' ▸ digitsValue_lt hcs) (digitsValue_lt hds), compare_char]
      congr 1
      exact compare_nat_congr (by omega) (by omega)

theorem compare_padded {w m n : Nat} (hw : 0 < w) (hm : m < 10 ^ w) (hn : n < 10 ^ w) :
    compare (padded w m) (padded w n) = compare m n := by
  rw [compare_digits (by rw [length_padded hw hm, length_padded hw hn])
    (fun _ h => isDigit_of_mem_padded h) (fun _ h => isDigit_of_mem_padded h),
    digitsValue_padded, digitsValue_padded]

end PerfLedger.Text
