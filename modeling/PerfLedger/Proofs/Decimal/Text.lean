import Mathlib.Data.List.TakeWhile
import PerfLedger.Decimal.Printer
import PerfLedger.Decimal.Reader
import PerfLedger.Proofs.Decimal.Digits
import PerfLedger.Proofs.Text.Numeral

/-!
# The fixed form, read back

The fixed form of a decimal denotes the decimal with a positive exponent written out in zeros
(`parse_fixed`), which is that very decimal if the exponent is not positive.

The characters of a fixed form are plain (`IsPlain`): the reader neither drops nor changes any of
them. So what is left is to take the sign, the digits before the point and those after it apart.
-/

namespace PerfLedger.Decimal

open PerfLedger.Text

/-- A decimal that a numeral can denote. -/
def IsRepresentable : Decimal → Prop
  | .finite _ n e => inRange n e = true
  | _ => True

/-- A positive exponent written out in zeros. -/
def positional : Decimal → Decimal
  | .finite s n e => if e ≤ 0 then .finite s n e else .finite s (n * 10 ^ e.toNat) 0
  | d => d

/-! ## Plain characters -/

/-- A character that the reader of numerals leaves as it is. -/
def IsPlain (c : Char) : Bool :=
  !isBlank c && c != '_' && toAsciiDigit c == c

theorem isPlain_of_isDigit {c : Char} (h : c.isDigit = true) : IsPlain c = true := by
  have hne : c ≠ '_' := by
    rintro rfl
    exact absurd h (by decide)
  have hascii : toAsciiDigit c = c := by
    rw [toAsciiDigit, digitValue?_of_isDigit h]
    exact asciiDigit_eq_self h
  simp [IsPlain, isBlank_of_isDigit h, hne, hascii]

theorem trim_eq_self {cs : List Char} (h : ∀ c ∈ cs, isBlank c = false) : trim cs = cs := by
  have drop {cs : List Char} (h : ∀ c ∈ cs, isBlank c = false) : cs.dropWhile isBlank = cs := by
    cases cs with
    | nil => rfl
    | cons c cs => exact List.dropWhile_cons_of_neg (by simp [h c List.mem_cons_self])
  rw [trim, trimBy, drop h, drop fun c hc => h c (List.mem_reverse.mp hc), List.reverse_reverse]

theorem plainNumeral_eq_self {cs : List Char} (h : ∀ c ∈ cs, IsPlain c = true) :
    plainNumeral (String.ofList cs) = cs := by
  have hp : ∀ c ∈ cs, isBlank c = false ∧ c ≠ '_' ∧ toAsciiDigit c = c := by
    intro c hc
    simpa [IsPlain, and_assoc] using h c hc
  have hfilter : cs.filter (· != '_') = cs :=
    List.filter_eq_self.mpr fun c hc => by simp [(hp c hc).2.1]
  rw [plainNumeral, String.toList_ofList, trim_eq_self fun c hc => (hp c hc).1, hfilter,
    List.map_congr_left fun c hc => (hp c hc).2.2, List.map_id']

theorem isPlain_of_mem_signChars {s : Bool} {c : Char} (h : c ∈ signChars s) :
    IsPlain c = true := by
  cases s with
  | false => exact absurd h List.not_mem_nil
  | true => rw [List.mem_singleton.mp h]; decide

/-- The sign that was written is read, if what follows it has none of its own. -/
theorem splitSign_signChars (s : Bool) {c : Char} (cs : List Char) (hm : c ≠ '-') (hp : c ≠ '+') :
    splitSign (signChars s ++ c :: cs) = (s, c :: cs) := by
  cases s with
  | true => rfl
  | false =>
    show splitSign (c :: cs) = _
    unfold splitSign
    split
    · next heq => exact absurd (List.cons.inj heq).1 hm
    · next heq => exact absurd (List.cons.inj heq).1 hp
    · rfl

/-! ## Digits with a point -/

theorem digitsValue_zeros_append (k : Nat) (ds : List Char) :
    digitsValue (List.replicate k '0' ++ ds) = digitsValue ds := by
  rw [digitsValue_append, digitsValue_eq (List.replicate k '0'), Nat.ofDigitChars_replicate_zero]
  simp

theorem digitsValue_append_zeros (ds : List Char) (k : Nat) :
    digitsValue (ds ++ List.replicate k '0') = digitsValue ds * 10 ^ k := by
  rw [digitsValue_append, digitsValue_eq (List.replicate k '0'), Nat.ofDigitChars_replicate_zero,
    List.length_replicate, Nat.mul_comm]
  simp

/-- Digits with a point are the digits before it, of which there is one at least, and those behind
it; without places there is no point. -/
theorem pointed_spec {ds : List Char} (hne : ds ≠ []) (hds : ∀ c ∈ ds, c.isDigit = true)
    (places : Nat) :
    ∃ c whole fraction, fraction.length = places ∧
      (∀ d ∈ c :: whole ++ fraction, d.isDigit = true) ∧
      digitsValue (c :: whole ++ fraction) = digitsValue ds ∧
      pointed ds places = c :: whole ++ if places = 0 then [] else '.' :: fraction := by
  by_cases h0 : places = 0
  · obtain ⟨c, cs, rfl⟩ := List.exists_cons_of_ne_nil hne
    exact ⟨c, cs, [], h0.symm, by simpa using hds, by simp, by simp [pointed, h0]⟩
  · -- Zeros in front leave a digit before the point.
    obtain ⟨xs, hxs⟩ : ∃ xs, xs = List.replicate (places + 1 - ds.length) '0' ++ ds := ⟨_, rfl⟩
    have hlen : places < xs.length := by
      rw [hxs, List.length_append, List.length_replicate]
      omega
    have hdigits : ∀ d ∈ xs, d.isDigit = true := by
      intro d hd
      rw [hxs, List.mem_append] at hd
      rcases hd with hd | hd
      · rw [List.eq_of_mem_replicate hd]; decide
      · exact hds d hd
    have htake : xs.take (xs.length - places) ≠ [] := by
      intro hc
      have := congrArg List.length hc
      rw [List.length_take, List.length_nil] at this
      omega
    obtain ⟨c, whole, hw⟩ := List.exists_cons_of_ne_nil htake
    refine ⟨c, whole, xs.drop (xs.length - places), ?_, ?_, ?_, ?_⟩
    · rw [List.length_drop]; omega
    · rw [← hw, List.take_append_drop]; exact hdigits
    · rw [← hw, List.take_append_drop, hxs, digitsValue_zeros_append]
    · simp only [pointed, if_neg h0, ← hxs, hw]

theorem readFinite?_digits {whole fraction : List Char} (hne : whole ≠ [])
    (hd : ∀ c ∈ whole ++ fraction, c.isDigit = true) :
    readFinite? (whole ++ if fraction.length = 0 then [] else '.' :: fraction)
      = some (digitsValue (whole ++ fraction), -(fraction.length : Int)) := by
  have hw : ∀ c ∈ whole, c.isDigit = true := fun c hc => hd c (List.mem_append_left _ hc)
  have hf : ∀ c ∈ fraction, c.isDigit = true := fun c hc => hd c (List.mem_append_right _ hc)
  have htake : fraction.takeWhile Char.isDigit = fraction := List.takeWhile_eq_self_iff.mpr hf
  have hdrop : fraction.dropWhile Char.isDigit = [] := List.dropWhile_eq_nil_iff.mpr hf
  by_cases h0 : fraction.length = 0
  · obtain rfl := List.eq_nil_of_length_eq_zero h0
    have hwt : whole.takeWhile Char.isDigit = whole := List.takeWhile_eq_self_iff.mpr hw
    have hwd : whole.dropWhile Char.isDigit = [] := List.dropWhile_eq_nil_iff.mpr hw
    simp [readFinite?, hwt, hwd, hne, readExponent?]
  · have hwt : (whole ++ '.' :: fraction).takeWhile Char.isDigit = whole := by
      rw [List.takeWhile_append_of_pos hw, List.takeWhile_cons_of_neg (by decide), List.append_nil]
    have hwd : (whole ++ '.' :: fraction).dropWhile Char.isDigit = '.' :: fraction := by
      rw [List.dropWhile_append_of_pos hw, List.dropWhile_cons_of_neg (by decide)]
    simp only [if_neg h0, readFinite?, hwt, hwd, htake, hdrop]
    simp [hne, readExponent?]

/-- The finite number that a sign and digits with a point denote. -/
theorem parse_pointed (s : Bool) {ds : List Char} (hne : ds ≠ [])
    (hds : ∀ c ∈ ds, c.isDigit = true) {n places : Nat} {e : Int} (hn : digitsValue ds = n)
    (he : -(places : Int) = e) (hr : inRange n e = true) :
    parse (String.ofList (signChars s ++ pointed ds places)) = .ok (.finite s n e) := by
  obtain ⟨c, whole, fraction, hlen, hdigits, hvalue, hpointed⟩ := pointed_spec hne hds places
  have hc : c.isDigit = true := hdigits c (by simp)
  have hplain : ∀ x ∈ signChars s ++ pointed ds places, IsPlain x = true := by
    intro x hx
    rcases List.mem_append.mp hx with hx | hx
    · exact isPlain_of_mem_signChars hx
    · rw [hpointed] at hx
      rcases List.mem_append.mp hx with hx | hx
      · exact isPlain_of_isDigit (hdigits x (List.mem_append_left _ hx))
      · split at hx
        · exact absurd hx List.not_mem_nil
        · rcases List.mem_cons.mp hx with rfl | hx
          · decide
          · exact isPlain_of_isDigit (hdigits x (List.mem_append_right _ hx))
  have hsign : splitSign (signChars s ++ pointed ds places) = (s, pointed ds places) := by
    rw [hpointed, List.cons_append]
    refine splitSign_signChars s _ ?_ ?_
    · rintro rfl; exact absurd hc (by decide)
    · rintro rfl; exact absurd hc (by decide)
  have hread : readFinite? (pointed ds places) = some (n, e) := by
    rw [hpointed, ← hlen, readFinite?_digits (List.cons_ne_nil c whole) hdigits, hvalue, hn, hlen,
      he]
  simp only [parse, plainNumeral_eq_self hplain, hsign, hread, hr, if_true]

/-! ## Finite numbers -/

theorem inRange_positional {n : Nat} {e : Int} (he : 0 < e) (h : inRange n e = true) :
    inRange (n * 10 ^ e.toNat) 0 = true := by
  simp only [inRange, Bool.and_eq_true, decide_eq_true_eq] at h ⊢
  by_cases hn : n = 0
  · subst hn
    simp [numeralMax, numeralMin]
  · have hpos : n * 10 ^ e.toNat ≠ 0 := Nat.mul_ne_zero hn (Nat.ne_of_gt (Nat.pow_pos (by decide)))
    rw [if_neg hn] at h
    rw [if_neg hpos, digitCount_mul_pow (by omega)]
    unfold numeralMin at h ⊢
    omega

/-- The digits of a fixed form. -/
theorem parse_fixed_finite (s : Bool) {n : Nat} {e : Int} (h : inRange n e = true) :
    parse (fixed (.finite s n e)) = .ok (positional (.finite s n e)) := by
  have hdigits : ∀ k, ∀ c ∈ digits n ++ List.replicate k '0', c.isDigit = true := by
    intro k c hc
    rcases List.mem_append.mp hc with hc | hc
    · exact isDigit_of_mem_digits hc
    · rw [List.eq_of_mem_replicate hc]; decide
  rcases Int.lt_or_le 0 e with he | he
  · have hplaces : (-e).toNat = 0 := by omega
    have hr := inRange_positional he h
    rw [positional, if_neg (by omega)]
    -- A zero is written without further zeros, and stands for the same.
    by_cases hn : n = 0
    · subst hn
      simp only [fixed, hplaces, if_true]
      exact parse_pointed s (digits_ne_nil 0) (fun _ => isDigit_of_mem_digits) (by simp) (by simp)
        hr
    · simp only [fixed, if_neg hn, hplaces]
      exact parse_pointed s (by simp [digits_ne_nil]) (hdigits _)
        (by rw [digitsValue_append_zeros, digitsValue_digits]) (by simp) hr
  · have hzeros : e.toNat = 0 := by omega
    rw [positional, if_pos he]
    simp only [fixed, hzeros, List.replicate_zero, List.append_nil, ite_self]
    exact parse_pointed s (digits_ne_nil n) (fun _ => isDigit_of_mem_digits) (digitsValue_digits n)
      (by omega) h

/-! ## Special numbers -/

theorem toLower_of_isDigit {c : Char} (h : c.isDigit = true) : c.toLower = c := by
  have := isDigit_iff.mp h
  have hup : ¬(65 ≤ c.toNat ∧ c.toNat ≤ 90) := by omega
  unfold Char.toLower
  exact dif_neg fun hc => hup ⟨hc.1, hc.2⟩

theorem map_toLower_digits {ds : List Char} (h : ∀ c ∈ ds, c.isDigit = true) :
    ds.map Char.toLower = ds := by
  rw [List.map_congr_left fun c hc => toLower_of_isDigit (h c hc), List.map_id']

/-- A name is no finite number. -/
theorem readFinite?_of_not_digit {c : Char} (cs : List Char) (hd : c.isDigit = false)
    (hp : c ≠ '.') : readFinite? (c :: cs) = none := by
  have htake : (c :: cs).takeWhile Char.isDigit = [] := List.takeWhile_cons_of_neg (by simp [hd])
  have hdrop : (c :: cs).dropWhile Char.isDigit = c :: cs :=
    List.dropWhile_cons_of_neg (by simp [hd])
  simp only [readFinite?, htake, hdrop]
  split
  · next heq => exact absurd (List.cons.inj heq).1 hp
  · simp

theorem readPayload?_digits {ds : List Char} (h : ∀ c ∈ ds, c.isDigit = true) :
    readPayload? ds = some (digitsValue ds) := by
  rw [readPayload?, if_pos (List.all_eq_true.mpr h)]

/-- The digits of a payload, of which there are none for zero. -/
def payloadChars (p : Nat) : List Char :=
  if p = 0 then [] else digits p

theorem isDigit_of_mem_payloadChars {p : Nat} {c : Char} (h : c ∈ payloadChars p) :
    c.isDigit = true := by
  unfold payloadChars at h
  split at h
  · exact absurd h List.not_mem_nil
  · exact isDigit_of_mem_digits h

theorem digitsValue_payloadChars (p : Nat) : digitsValue (payloadChars p) = p := by
  unfold payloadChars
  split
  · next hp => rw [hp]; rfl
  · exact digitsValue_digits p

/-- A name begins past the digits, so that it is neither a sign nor a number, and the special
number that it names is read. -/
theorem parse_name (s : Bool) {c : Char} {cs : List Char} {d : Decimal}
    (hplain : ∀ x ∈ c :: cs, IsPlain x = true) (hc : 57 < c.toNat)
    (hread : readSpecial? s ((c :: cs).map Char.toLower) = some d) :
    parse (String.ofList (signChars s ++ c :: cs)) = .ok d := by
  have hd : c.isDigit = false := by
    cases hdig : c.isDigit with
    | false => rfl
    | true =>
      have := isDigit_iff.mp hdig
      omega
  have hne (x : Char) (hx : x.toNat ≤ 57) : c ≠ x := by
    rintro rfl
    omega
  have hall : ∀ x ∈ signChars s ++ c :: cs, IsPlain x = true := by
    intro x hx
    rcases List.mem_append.mp hx with hx | hx
    · exact isPlain_of_mem_signChars hx
    · exact hplain x hx
  simp only [parse, plainNumeral_eq_self hall,
    splitSign_signChars s cs (hne '-' (by decide)) (hne '+' (by decide)),
    readFinite?_of_not_digit cs hd (hne '.' (by decide)), hread]

theorem parse_specialChars {d : Decimal} (h : ∀ s n e, d ≠ .finite s n e) :
    parse (String.ofList d.specialChars) = .ok d := by
  cases d with
  | finite s n e => exact absurd rfl (h s n e)
  | infinite s =>
    have hplain : ('I' :: "nfinity".toList).all IsPlain = true := by decide
    exact parse_name s (List.all_eq_true.mp hplain) (by decide) rfl
  | nan s q p =>
    have hd := fun c => isDigit_of_mem_payloadChars (p := p) (c := c)
    cases q with
    | false =>
      have hchars : specialChars (.nan s false p)
          = signChars s ++ 'N' :: 'a' :: 'N' :: payloadChars p := by
        simp [specialChars, payloadChars]
      rw [hchars]
      refine parse_name s ?_ (by decide) ?_
      · intro x hx
        simp only [List.mem_cons] at hx
        rcases hx with rfl | rfl | rfl | hx
        · decide
        · decide
        · decide
        · exact isPlain_of_isDigit (hd x hx)
      · simp only [List.map_cons, map_toLower_digits hd]
        show (readPayload? (payloadChars p)).map (Decimal.nan s false) = _
        rw [readPayload?_digits hd, digitsValue_payloadChars]
        rfl
    | true =>
      have hchars : specialChars (.nan s true p)
          = signChars s ++ 's' :: 'N' :: 'a' :: 'N' :: payloadChars p := by
        simp [specialChars, payloadChars]
      rw [hchars]
      refine parse_name s ?_ (by decide) ?_
      · intro x hx
        simp only [List.mem_cons] at hx
        rcases hx with rfl | rfl | rfl | rfl | hx
        · decide
        · decide
        · decide
        · decide
        · exact isPlain_of_isDigit (hd x hx)
      · simp only [List.map_cons, map_toLower_digits hd]
        show (readPayload? (payloadChars p)).map (Decimal.nan s true) = _
        rw [readPayload?_digits hd, digitsValue_payloadChars]
        rfl

/-! ## All decimals -/

/-- **The fixed form is read back**, with a positive exponent written out in zeros. -/
theorem parse_fixed {d : Decimal} (h : d.IsRepresentable) : parse d.fixed = .ok d.positional := by
  cases d with
  | finite s n e => exact parse_fixed_finite s h
  | infinite s => exact parse_specialChars (by simp)
  | nan s q p => exact parse_specialChars (by simp)

end PerfLedger.Decimal
