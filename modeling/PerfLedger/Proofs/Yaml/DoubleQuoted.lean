import Mathlib.Algebra.Ring.Nat
import PerfLedger.Proofs.Yaml.Quoted

/-!
# Double quotes, read back

Every character that does not stand for itself is escaped, by its name or by its number, and an
escape is read back as its character. Where a line is broken, the line end is escaped and stands for
nothing.
-/

namespace PerfLedger.Yaml

variable {text rest : List Char} {xs ys : List (Option Char)} {ch : Char} {c : Cursor}

/-! ## Characters -/

/-- Between double quotes, a character ends the scalar, begins an escape or stands for itself. -/
theorem quotedFrom_double (hc : c.rest = ch :: text) (hch : (isBlank ch || isBreak ch) = false) :
    quotedFrom true c =
      if ch = '"' then .ok ([], c.advance 1)
      else if ch = '\\' then
        match scanEscape (c.advance 1) with
        | .error f => .error f
        | .ok (xs, d) => prepend xs (quotedFrom true d)
      else prepend [some ch] (quotedFrom true (c.advance 1)) := by
  rw [quotedFrom]
  split
  · next h => exact absurd (hc.symm.trans h) (by simp)
  · next ch' more h =>
    obtain ⟨rfl, rfl⟩ := List.cons.inj (hc.symm.trans h)
    rw [dif_neg (by simp [hch])]
    simp only [if_true]
    split
    · rfl
    · split
      · split
        · next h' => rw [h']
        · next h' => rw [h']
      · rfl

theorem spells_double_end : Spells true ('"' :: rest) [] rest := by
  intro c hc
  exact ⟨c.advance 1, quotedFrom_double hc rfl, by simp [hc]⟩

/-- Between double quotes, a character that is no blank stands for itself. -/
theorem Spells.literal (h : Spells true text xs rest) (hch : Printer.isLiteral ch = true)
    (hne : ch ≠ ' ') : Spells true (ch :: text) (some ch :: xs) rest := by
  intro c hc
  obtain ⟨d, hd, hdrest⟩ := h (c.advance 1) (by simp [hc])
  refine ⟨d, ?_, hdrest⟩
  simp only [Printer.isLiteral, Bool.and_eq_true, bne_iff_ne, ne_eq] at hch
  obtain ⟨⟨hprintable, hquote⟩, hbackslash⟩ := hch
  rw [quotedFrom_double hc (by simp [isBlank_of_isPrintable hprintable hne,
    isBreak_of_isPrintable hprintable]), if_neg hquote, if_neg hbackslash, hd]
  rfl

/-- Between double quotes, an escape stands for what it gives. -/
theorem Spells.escape {more : List Char} (h : Spells true more xs rest)
    (hescape : ∀ c : Cursor, c.rest = text → ∃ d, scanEscape c = .ok (ys, d) ∧ d.rest = more) :
    Spells true ('\\' :: text) (ys ++ xs) rest := by
  intro c hc
  obtain ⟨e, he, herest⟩ := hescape (c.advance 1) (by simp [hc])
  obtain ⟨d, hd, hdrest⟩ := h e herest
  refine ⟨d, ?_, hdrest⟩
  rw [quotedFrom_double hc rfl, if_neg (by decide), if_pos rfl]
  simp only [he, hd]
  rfl

/-! ## Escapes -/

theorem hexNumber_append (n : Nat) (as bs : List Char) :
    hexNumber? n (as ++ bs) = (hexNumber? n as).bind fun k => hexNumber? k bs := by
  induction as generalizing n with
  | nil => rfl
  | cons a as ih =>
    simp only [List.cons_append, hexNumber?]
    cases Json.hexValue? a with
    | none => rfl
    | some d => exact ih _

theorem hexValue_hexDigit {d : Nat} (h : d < 16) :
    Json.hexValue? (Text.hexDigit d).toUpper = some d := by
  have hall : ∀ d < 16, Json.hexValue? (Text.hexDigit d).toUpper = some d := by decide
  exact hall d h

theorem Printer.hexDigits_succ (width n : Nat) : Printer.hexDigits (width + 1) n
    = Printer.hexDigits width (n / 16) ++ [(Text.hexDigit (n % 16)).toUpper] := by
  simp [Printer.hexDigits, Text.hexDigits]

theorem length_hexDigits (width n : Nat) : (Printer.hexDigits width n).length = width := by
  induction width generalizing n with
  | zero => rfl
  | succ k ih => simp [Printer.hexDigits_succ, ih]

/-- A number is read back from its digits, if there are enough of them. -/
theorem hexNumber_hexDigits {width n : Nat} (h : n < 16 ^ width) :
    hexNumber? 0 (Printer.hexDigits width n) = some n := by
  induction width generalizing n with
  | zero =>
    have hzero : n = 0 := by simpa using h
    rw [hzero]
    rfl
  | succ k ih =>
    have hdiv : n / 16 < 16 ^ k := by
      rw [Nat.pow_succ] at h
      omega
    rw [Printer.hexDigits_succ, hexNumber_append, ih hdiv]
    simp only [Option.bind_some, hexNumber?, hexValue_hexDigit (Nat.mod_lt n (by decide))]
    rw [Nat.div_add_mod']

theorem ofCodePoint_toNat (ch : Char) : ofCodePoint ch.toNat = .ok (some ch) := by
  have hvalid : ch.toNat.isValidChar := ch.valid
  unfold Nat.isValidChar at hvalid
  unfold ofCodePoint
  rw [if_neg (by omega), if_neg (by omega), if_neg (by omega), Char.ofNat_toNat]

/-- The escape of a character by its number. -/
theorem scanNumbered_hexDigits {width : Nat} (h : ch.toNat < 16 ^ width)
    (hc : c.rest = Printer.hexDigits width ch.toNat ++ rest) :
    scanNumbered width c = .ok ([some ch], c.advance width) := by
  have hlength : ¬c.rest.length < width := by
    rw [hc, List.length_append, length_hexDigits]
    omega
  have htake : c.rest.take width = Printer.hexDigits width ch.toNat := by
    rw [hc, List.take_left' (length_hexDigits _ _)]
  simp only [scanNumbered, if_neg hlength, htake, hexNumber_hexDigits h, ofCodePoint_toNat]

theorem scanEscape_number {letter : Char} {width : Nat} (hname : escapes.lookup letter = none)
    (hwidth : escapeWidth? letter = some width) (h : ch.toNat < 16 ^ width)
    (hc : c.rest = letter :: Printer.hexDigits width ch.toNat ++ rest) :
    ∃ d, scanEscape c = .ok ([some ch], d) ∧ d.rest = rest := by
  have hrest : (c.advance 1).rest = Printer.hexDigits width ch.toNat ++ rest := by simp [hc]
  refine ⟨(c.advance 1).advance width, ?_, ?_⟩
  · unfold scanEscape
    rw [hc, List.cons_append]
    simp only [hname, hwidth]
    exact scanNumbered_hexDigits h hrest
  · rw [Cursor.rest_advance, hrest, List.drop_left' (length_hexDigits _ _)]

theorem lookup_escapes {e : Char × Char} (h : e ∈ escapes) : escapes.lookup e.1 = some e.2 := by
  have hall : ∀ e ∈ escapes, escapes.lookup e.1 = some e.2 := by decide
  exact hall e h

/-- **The escape of a character gives the character.** -/
theorem Spells.escaped (h : Spells true text xs rest) :
    Spells true (Printer.escape ch ++ text) (some ch :: xs) rest := by
  have hbound : ch.toNat < 16 ^ 8 := by
    have hvalid : ch.toNat.isValidChar := ch.valid
    unfold Nat.isValidChar at hvalid
    omega
  unfold Printer.escape
  split
  · next e hfind =>
    have hlookup := lookup_escapes (List.mem_of_find?_eq_some hfind)
    have hsnd : e.2 = ch := by simpa using List.find?_some hfind
    show Spells true ('\\' :: e.1 :: text) ([some ch] ++ xs) rest
    refine h.escape ?_
    intro c hc
    refine ⟨c.advance 1, ?_, by simp [hc]⟩
    simp only [scanEscape, hc, hlookup, hsnd]
  · dsimp only
    split
    · next hlt =>
      show Spells true ('\\' :: ('x' :: Printer.hexDigits 2 ch.toNat ++ text)) ([some ch] ++ xs) _
      exact h.escape fun c hc => scanEscape_number (by decide) rfl hlt hc
    · split
      · next hlt =>
        show Spells true ('\\' :: ('u' :: Printer.hexDigits 4 ch.toNat ++ text)) ([some ch] ++ xs) _
        exact h.escape fun c hc => scanEscape_number (by decide) rfl hlt hc
      · show Spells true ('\\' :: ('U' :: Printer.hexDigits 8 ch.toNat ++ text)) ([some ch] ++ xs) _
        exact h.escape fun c hc => scanEscape_number (by decide) rfl hbound hc

/-! ## Double quotes -/

theorem exists_escape (ch : Char) : ∃ text, Printer.escape ch = '\\' :: text := by
  unfold Printer.escape
  split
  · exact ⟨_, rfl⟩
  · dsimp only
    split
    · exact ⟨_, rfl⟩
    · split <;> exact ⟨_, rfl⟩

theorem isBlank_of_isLiteral (h : Printer.isLiteral ch = true) (hne : ch ≠ ' ') :
    isBlank ch = false ∧ isBreak ch = false := by
  simp only [Printer.isLiteral, Bool.and_eq_true] at h
  exact ⟨isBlank_of_isPrintable h.1.1 hne, isBreak_of_isPrintable h.1.1⟩

theorem isSolid_doubleFrom (escaped : Bool) (column : Nat) (cs rest : List Char) :
    IsSolid (Printer.doubleFrom escaped column cs ++ '"' :: rest) := by
  induction cs generalizing escaped column with
  | nil => exact isSolid_cons rfl rfl
  | cons ch cs ih =>
    obtain ⟨text, htext⟩ := exists_escape ch
    unfold Printer.doubleFrom
    by_cases hliteral : Printer.isLiteral ch = true
    · rw [if_pos hliteral]
      split
      · exact isSolid_cons rfl rfl
      · by_cases hspace : ch = ' '
        · rw [hspace]
          exact isSolid_space (ih _ _)
        · obtain ⟨hblank, hbreak⟩ := isBlank_of_isLiteral hliteral hspace
          exact isSolid_cons hblank hbreak
    · rw [if_neg hliteral, htext]
      dsimp only
      split <;> exact isSolid_cons rfl rfl

/-- **An escaped line end stands for nothing**, if the next line goes on without a blank. -/
theorem Spells.escapedBreak (h : Spells true (ch :: text) xs rest) (hblank : isBlank ch = false)
    (hbreak : isBreak ch = false) :
    Spells true ('\\' :: Printer.lineBreak ++ ch :: text) xs rest := by
  have hskips := skips_margin text hblank hbreak
  show Spells true ('\\' :: ('\n' :: (Printer.margin ++ ch :: text))) ([] ++ xs) rest
  refine h.escape ?_
  intro c hc
  obtain ⟨d, hd, hdrest⟩ := hskips (c.advance 1) (by simp [hc])
  refine ⟨d, ?_, hdrest⟩
  have hname : escapes.lookup '\n' = none := by decide
  simp only [scanEscape, hc, hname, escapeWidth?, isBreak, scanEscapedBreak, hd]
  rfl

/-- A character on a line of its own, where a space is escaped. -/
theorem Spells.literal_behind_break (h : Spells true text xs rest)
    (hch : Printer.isLiteral ch = true) :
    Spells true (Printer.escapedBreak (some ch) ++ ch :: text) (some ch :: xs) rest := by
  by_cases hspace : ch = ' '
  · subst hspace
    have hescaped : Spells true ('\\' :: ' ' :: text) (some ' ' :: xs) rest := by
      show Spells true ('\\' :: ' ' :: text) ([some ' '] ++ xs) rest
      refine h.escape ?_
      intro c hc
      have hname : escapes.lookup ' ' = some ' ' := by decide
      exact ⟨c.advance 1, by simp only [scanEscape, hc, hname], by simp [hc]⟩
    exact hescaped.escapedBreak rfl rfl
  · obtain ⟨hblank, hbreak⟩ := isBlank_of_isLiteral hch hspace
    have hafter : Printer.escapedBreak (some ch) = '\\' :: Printer.lineBreak := by
      simp [Printer.escapedBreak, hspace]
    rw [hafter]
    exact (h.literal hch hspace).escapedBreak hblank hbreak

/-- At the start of a line, a character is printed without a line end in front of it. -/
theorem doubleFrom_literal (escaped : Bool) {column : Nat} (hch : Printer.isLiteral ch = true)
    (hcolumn : column ≤ Printer.lineWidth) (cs : List Char) :
    Printer.doubleFrom escaped column (ch :: cs)
      = ch :: Printer.doubleFrom false (column + 1) cs := by
  rw [Printer.doubleFrom, if_pos hch, if_neg (by omega)]

theorem columnAfterBreak_le (after : Option Char) :
    Printer.columnAfterBreak after ≤ Printer.lineWidth := by
  unfold Printer.columnAfterBreak
  split <;> decide

/-- A line that begins with an escape. -/
theorem Spells.escape_behind_break {cs : List Char} (hliteral : Printer.isLiteral ch ≠ true)
    (h : ∀ column, Spells true (Printer.doubleFrom true column (ch :: cs) ++ text) xs rest) :
    Spells true (Printer.escapedBreak (some ch) ++
      (Printer.doubleFrom true (Printer.columnAfterBreak (some ch)) (ch :: cs) ++ text))
        xs rest := by
  obtain ⟨more, hmore⟩ : ∃ more, Printer.doubleFrom true
      (Printer.columnAfterBreak (some ch)) (ch :: cs) = '\\' :: more := by
    obtain ⟨escaped, hescape⟩ := exists_escape ch
    unfold Printer.doubleFrom
    rw [if_neg hliteral, hescape]
    dsimp only
    split <;> exact ⟨_, rfl⟩
  have hspace : ch ≠ ' ' := by
    rintro rfl
    exact hliteral rfl
  have hafter : Printer.escapedBreak (some ch) = '\\' :: Printer.lineBreak := by
    simp [Printer.escapedBreak, hspace]
  have hread := h (Printer.columnAfterBreak (some ch))
  rw [hmore] at hread
  rw [hafter, hmore]
  exact Spells.escapedBreak hread rfl rfl

/-- **What is printed between double quotes is read back**, also behind a line end that is printed
in front of it. -/
theorem spells_doubleFrom (cs rest : List Char) :
    (∀ escaped column, Spells true (Printer.doubleFrom escaped column cs ++ '"' :: rest)
      (cs.map some) rest) ∧
    (cs ≠ [] → Spells true (Printer.escapedBreak cs.head? ++
      (Printer.doubleFrom true (Printer.columnAfterBreak cs.head?) cs ++ '"' :: rest))
      (cs.map some) rest) := by
  induction cs with
  | nil => exact ⟨fun _ _ => spells_double_end, fun h => absurd rfl h⟩
  | cons ch cs ih =>
    obtain ⟨htext, hbehind⟩ := ih
    by_cases hliteral : Printer.isLiteral ch = true
    · refine ⟨fun escaped column => ?_, fun _ => ?_⟩
      · unfold Printer.doubleFrom
        rw [if_pos hliteral]
        split
        · rw [List.append_assoc]
          exact (htext _ _).literal_behind_break hliteral
        · by_cases hspace : ch = ' '
          · rw [hspace]
            exact (htext _ _).space (isSolid_doubleFrom _ _ _ _)
          · exact (htext _ _).literal hliteral hspace
      · rw [List.head?_cons, doubleFrom_literal true hliteral (columnAfterBreak_le _)]
        exact (htext _ _).literal_behind_break hliteral
    · have hescaped (escaped : Bool) (column : Nat) :
          Spells true (Printer.doubleFrom escaped column (ch :: cs) ++ '"' :: rest)
            ((ch :: cs).map some) rest := by
        unfold Printer.doubleFrom
        rw [if_neg hliteral]
        dsimp only
        split
        · next hfull =>
          rw [List.append_assoc, List.append_assoc]
          exact (hbehind hfull.2).escaped
        · rw [List.append_assoc]
          exact (htext _ _).escaped
      exact ⟨hescaped, fun _ => Spells.escape_behind_break hliteral (hescaped true)⟩

end PerfLedger.Yaml
