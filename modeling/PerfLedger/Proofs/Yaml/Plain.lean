import PerfLedger.Proofs.Yaml.Cursor

/-!
# Plain scalars, read back

A plain scalar is read run by run, while it is printed character by character. What is read from
within a run on (`plainRest`) does not depend on where the run began, so that it can be taken
character by character, too: a character of a run stands for itself, and so does a space, and a
line end with the indentation behind it stands for a space (`Continues`). Where it stands matters
only in that it is indented.
-/

namespace PerfLedger.Yaml

variable {c : Cursor} {ch : Char} {text : List Char} {indent : Int}

namespace PlainScalar

@[simp] theorem prepend_prepend (as bs : List Char) (p : PlainScalar) :
    (p.prepend bs).prepend as = p.prepend (as ++ bs) := by
  simp [prepend]

end PlainScalar

/-! ## Reading from within a run -/

/-- What is read behind a run, outside flow collections: nothing more if the gap ends the scalar. -/
def plainBehind (indent : Int) (gap : Gap) : PlainScalar :=
  if gap.text = [] ∨ gap.after.sees (· == '#') ∨ (gap.after.column : Int) < indent then
    ⟨[], gap.after, gap.crossed⟩
  else plainFrom false indent gap.text gap.crossed gap.after

/-- A plain scalar from within a run on. -/
def plainRest (indent : Int) (c : Cursor) : PlainScalar :=
  let run := plainRun false c.rest
  (plainBehind indent (plainGap (c.advance run.length))).prepend run

/-- A text that begins with a run, if it is not that of a comment. -/
def BeginsRun (text : List Char) : Prop :=
  ∃ x more, text = x :: more ∧ x ≠ '#' ∧ endsRun false x more.head? = false

theorem BeginsRun.head (h : BeginsRun text) :
    ∀ x ∈ text.head?, x ≠ ' ' ∧ isBreak x = false := by
  obtain ⟨x, more, rfl, -, hends⟩ := h
  simp only [endsRun, Bool.or_eq_false_iff, isBlank, beq_eq_false_iff_ne] at hends
  intro y hy
  obtain rfl : x = y := by simpa using hy
  exact ⟨hends.1.1.1.1, hends.1.1.2⟩

theorem BeginsRun.plainRun_ne_nil (h : BeginsRun text) : plainRun false text ≠ [] := by
  obtain ⟨x, more, rfl, -, hx⟩ := h
  simp [plainRun, hx]

theorem BeginsRun.not_sees (h : BeginsRun c.rest) : c.sees (· == '#') = false := by
  obtain ⟨x, more, hrest, hx, -⟩ := h
  simp [Cursor.sees, Cursor.peek?, hrest, hx]

/-- What is read at the start of a run is what is read from within it, behind what is pending. -/
theorem plainFrom_eq (h : BeginsRun c.rest) (pending : List Char) (crossed : Bool) :
    plainFrom false indent pending crossed c = (plainRest indent c).prepend pending := by
  rw [plainFrom, dif_neg (by simp [h.not_sees, h.plainRun_ne_nil]), plainRest]
  simp only [Bool.not_false, true_and, plainBehind]
  split
  · simp [PlainScalar.prepend]
  · simp

theorem plainRest_cons (hc : c.rest = ch :: text) (h : endsRun false ch text.head? = false) :
    plainRest indent c = (plainRest indent (c.advance 1)).prepend [ch] := by
  have hrun : plainRun false c.rest = ch :: plainRun false (c.advance 1).rest := by
    simp [hc, plainRun, h]
  rw [plainRest, plainRest, hrun, List.length_cons, Cursor.advance_succ hc (plainRun _ _).length,
    PlainScalar.prepend_prepend, List.singleton_append]

theorem plainRest_of_run_eq_nil (hc : plainRun false c.rest = []) :
    plainRest indent c = plainBehind indent (plainGap c) := by
  rw [plainRest, hc]
  rfl

/-- Where a run ends, what is read is what the gap leaves. -/
theorem plainRest_of_gap (hc : plainRun false c.rest = []) {gap : Gap} (hgap : plainGap c = gap)
    (htext : gap.text ≠ []) (hrun : BeginsRun gap.after.rest)
    (hcolumn : indent ≤ gap.after.column) :
    plainRest indent c = (plainRest indent gap.after).prepend gap.text := by
  rw [plainRest_of_run_eq_nil hc, hgap, plainBehind,
    if_neg (by simp [htext, hrun.not_sees, hcolumn]), plainFrom_eq hrun]

/-! ## Gaps -/

/-- The spaces in front of a run stand for themselves. -/
theorem plainRest_skipSpaces (hrun : BeginsRun (c.rest.dropWhile (· == ' ')))
    (hcolumn : indent ≤ c.column) :
    plainRest indent c
      = (plainRest indent c.skipSpaces).prepend (c.rest.takeWhile (· == ' ')) := by
  cases hrest : c.rest with
  | nil =>
    have hskip : c.skipSpaces = c := Cursor.skipWhile_of_head (by simp [hrest])
    rw [hskip]
    rfl
  | cons x more =>
    by_cases hx : x = ' '
    · subst hx
      have hafter : c.skipSpaces.rest = c.rest.dropWhile (· == ' ') := Cursor.rest_skipWhile c _
      have hnone : c.skipSpaces.breakAt? = none :=
        Cursor.breakAt?_of_head fun y hy => (hrun.head y (by rwa [← hafter])).2
      have hgap : plainGap c = ⟨c.rest.takeWhile (· == ' '), c.skipSpaces, false⟩ := by
        simp only [plainGap, hnone]
      rw [← hrest]
      have hbehind : indent ≤ c.skipSpaces.column :=
        Int.le_trans hcolumn (Int.ofNat_le.mpr c.column_skipSpaces)
      exact plainRest_of_gap (by rw [hrest]; rfl) hgap (by simp [hrest]) (by rwa [hafter]) hbehind
    · have hskip : c.skipSpaces = c := Cursor.skipWhile_of_head (by simp [hrest, hx])
      rw [hskip, List.takeWhile_cons_of_neg (by simp [hx])]
      rfl

theorem plainRest_space (hc : c.rest = ' ' :: text) (hrun : BeginsRun (text.dropWhile (· == ' ')))
    (hcolumn : indent ≤ c.column) :
    plainRest indent c = (plainRest indent (c.advance 1)).prepend [' '] := by
  have hrest : (c.advance 1).rest = text := by simp [hc]
  have hskip : c.skipSpaces = (c.advance 1).skipSpaces := Cursor.skipWhile_cons hc rfl
  have hbehind : indent ≤ (c.advance 1).column :=
    Int.le_trans hcolumn (Int.ofNat_le.mpr (Cursor.column_advance_one hc rfl))
  rw [plainRest_skipSpaces (by rw [hc]; exact hrun) hcolumn,
    plainRest_skipSpaces (by rw [hrest]; exact hrun) hbehind, hskip, hc, hrest]
  simp

theorem plainBreaks_of_head (hc : ∀ x ∈ c.rest.head?, x ≠ ' ' ∧ isBreak x = false) :
    plainBreaks c = ⟨[], c, false⟩ := by
  rw [plainBreaks]
  split
  · rfl
  · next x more hrest =>
    obtain ⟨hspace, hbreak⟩ := hc x (by simp [hrest])
    rw [if_neg hspace, if_neg (by simp [hbreak])]

theorem plainBreaks_space (hc : c.rest = ' ' :: text) :
    plainBreaks c = plainBreaks (c.advance 1) := by
  rw [plainBreaks]
  split
  · next h => exact absurd (hc.symm.trans h) (by simp)
  · next x more h =>
    obtain ⟨rfl, -⟩ := List.cons.inj (hc.symm.trans h)
    rfl

/-- A line end and an indentation are a gap that is folded to a space. -/
theorem plainRest_lineBreak (hc : c.rest = Printer.lineBreak ++ text) (hrun : BeginsRun text)
    (hindent : indent ≤ Printer.marginWidth) :
    ∃ d, d.rest = text ∧ d.column = Printer.marginWidth ∧
      plainRest indent c = (plainRest indent d).prepend [' '] := by
  have hfeed : c.rest = '\n' :: ' ' :: ' ' :: text := hc
  have hline : (c.advance 1).rest = ' ' :: ' ' :: text := by simp [hfeed]
  have hspace : ((c.advance 1).advance 1).rest = ' ' :: text := by simp [hfeed]
  have hafter : (c.advance 3).rest = text := by simp [hfeed]
  have hcolumn : (c.advance 3).column = Printer.marginWidth := by
    simp [Cursor.advance, hfeed, Cursor.past, isBreak, Printer.marginWidth, Printer.margin]
  have hbreaks : plainBreaks (c.advance 1) = ⟨[], c.advance 3, false⟩ := by
    rw [plainBreaks_space hline, plainBreaks_space hspace, ← Cursor.advance_succ hline 1,
      ← Cursor.advance_succ hfeed 2]
    exact plainBreaks_of_head (by rw [hafter]; exact hrun.head)
  have hskip : c.skipSpaces = c := Cursor.skipWhile_of_head (by simp [hfeed])
  have hgap : plainGap c = ⟨[' '], c.advance 3, true⟩ := by
    simp only [plainGap, hskip, Cursor.breakAt?_lineFeed hfeed, lineGap, hbreaks,
      Cursor.not_seesDocumentMark (by decide) (by decide) hline]
    rfl
  refine ⟨c.advance 3, hafter, hcolumn, ?_⟩
  exact plainRest_of_gap (by rw [hfeed]; rfl) hgap (by simp) (by rwa [hafter])
    (by rw [hcolumn]; exact hindent)

/-- At the last line end, nothing is left to read. -/
theorem plainRest_end (hc : c.rest = ['\n']) (hindent : 0 < indent) :
    plainRest indent c = ⟨[], c.advance 1, true⟩ := by
  have hafter : (c.advance 1).rest = [] := by simp [hc]
  have hcolumn : (c.advance 1).column = 0 := Cursor.column_lineFeed hc
  have hskip : c.skipSpaces = c := Cursor.skipWhile_of_head (by simp [hc])
  have hgap : plainGap c = ⟨[' '], c.advance 1, true⟩ := by
    have hbreaks : plainBreaks (c.advance 1) = ⟨[], c.advance 1, false⟩ :=
      plainBreaks_of_head (by rw [hafter]; simp)
    simp only [plainGap, hskip, Cursor.breakAt?_lineFeed hc, Cursor.seesDocumentMark, hafter,
      lineGap, hbreaks]
    rfl
  have hrun : plainRun false c.rest = [] := by
    rw [hc]
    rfl
  rw [plainRest_of_run_eq_nil hrun, hgap, plainBehind, if_pos]
  simp [hcolumn, hindent]

/-! ## Reading from a text on -/

/-- Wherever a text stands, indented enough, it is read from within a run on as some characters, and
nothing but the end of the text is left behind them. -/
def Continues (indent : Int) (text cs : List Char) : Prop :=
  ∀ c : Cursor, c.rest = text → indent ≤ c.column →
    ∃ d, plainRest indent c = ⟨cs, d, true⟩ ∧ d.rest = [] ∧ d.column = 0

variable {cs : List Char}

theorem continues_end (hindent : 0 < indent) : Continues indent ['\n'] [] := by
  intro c hc _
  exact ⟨c.advance 1, plainRest_end hc hindent, by simp [hc], Cursor.column_lineFeed hc⟩

/-- **A character of a run stands for itself.** -/
theorem Continues.cons (h : Continues indent text cs) (hends : endsRun false ch text.head? = false)
    (hbreak : isBreak ch = false) : Continues indent (ch :: text) (ch :: cs) := by
  intro c hc hcolumn
  have hnext : indent ≤ (c.advance 1).column :=
    Int.le_trans hcolumn (Int.ofNat_le.mpr (Cursor.column_advance_one hc hbreak))
  obtain ⟨d, hd, hend⟩ := h (c.advance 1) (by simp [hc]) hnext
  exact ⟨d, by rw [plainRest_cons hc hends, hd]; rfl, hend⟩

/-- **A space stands for itself**, if a run follows the spaces. -/
theorem Continues.space (h : Continues indent text cs)
    (hrun : BeginsRun (text.dropWhile (· == ' '))) :
    Continues indent (' ' :: text) (' ' :: cs) := by
  intro c hc hcolumn
  have hnext : indent ≤ (c.advance 1).column :=
    Int.le_trans hcolumn (Int.ofNat_le.mpr (Cursor.column_advance_one hc rfl))
  obtain ⟨d, hd, hend⟩ := h (c.advance 1) (by simp [hc]) hnext
  exact ⟨d, by rw [plainRest_space hc hrun hcolumn, hd]; rfl, hend⟩

/-- **A line end and an indentation stand for a space**, if a run follows them. -/
theorem Continues.lineBreak (h : Continues indent text cs) (hrun : BeginsRun text)
    (hindent : indent ≤ Printer.marginWidth) :
    Continues indent (Printer.lineBreak ++ text) (' ' :: cs) := by
  intro c hc _
  obtain ⟨e, herest, hecolumn, he⟩ := plainRest_lineBreak hc hrun hindent
  obtain ⟨d, hd, hend⟩ := h e herest (by rw [hecolumn]; exact hindent)
  exact ⟨d, by rw [he, hd]; rfl, hend⟩

/-! ## Words -/

theorem plainRun_word {word : List Char}
    (hword : ∀ x ∈ word, Style.isPrintable x = true ∧ x ≠ ' ' ∧ x ≠ ':') (text : List Char) :
    plainRun false (word ++ ':' :: ' ' :: text) = word := by
  induction word with
  | nil => rfl
  | cons x word ih =>
    obtain ⟨hprintable, hspace, hcolon⟩ := hword x (by simp)
    have hends (next : Option Char) : endsRun false x next = false := by
      simp [endsRun, isBlank_of_isPrintable hprintable hspace, isBreak_of_isPrintable hprintable,
        hcolon]
    rw [List.cons_append, plainRun, hends, ih fun y hy => hword y (by simp [hy])]
    rfl

/-- **A word in front of a colon is read as it stands.** -/
theorem scanPlain_word {word : List Char} (hne : word ≠ [])
    (hword : ∀ x ∈ word, Style.isPrintable x = true ∧ x ≠ ' ' ∧ x ≠ ':') (hmark : '#' ∉ word)
    (hc : c.rest = word ++ ':' :: ' ' :: text) :
    scanPlain false indent c = ⟨word, c.advance word.length, false⟩ := by
  have hrun : plainRun false c.rest = word := by rw [hc, plainRun_word hword]
  have hrest : (c.advance word.length).rest = ':' :: ' ' :: text := by simp [hc]
  have hskip : (c.advance word.length).skipSpaces = c.advance word.length :=
    Cursor.skipWhile_of_head (by rw [hrest]; simp)
  have hnone : (c.advance word.length).breakAt? = none :=
    Cursor.breakAt?_of_head (by rw [hrest]; simp [isBreak])
  have hgap : plainGap (c.advance word.length) = ⟨[], c.advance word.length, false⟩ := by
    simp only [plainGap, hskip, hnone, hrest]
    rfl
  have hsees : c.sees (· == '#') = false := by
    cases word with
    | nil => exact absurd rfl hne
    | cons x more =>
      have hx : x ≠ '#' := fun h => hmark (by simp [h])
      simp [Cursor.sees, Cursor.peek?, hc, hx]
  rw [scanPlain, plainFrom, dif_neg (by simp [hsees, hrun, hne]), hrun]
  simp only [hgap]
  rfl

/-! ## Texts -/

/-- What a plain scalar can go on with. -/
structure IsPlainTail (cs : List Char) : Prop where
  printable : ∀ x ∈ cs, Style.isPrintable x = true
  indicator : Style.hasIndicator cs = false
  last : cs.getLast? ≠ some ' '

theorem IsPlainTail.tail (h : IsPlainTail (ch :: cs)) : IsPlainTail cs where
  printable := fun x hx => h.printable x (List.mem_cons_of_mem _ hx)
  indicator := by
    have hindicator := h.indicator
    simp only [Style.hasIndicator, Bool.or_eq_false_iff] at hindicator
    exact hindicator.2
  last := by
    cases cs with
    | nil => simp
    | cons x more => simpa using h.last

/-- A character that is no space is printed where it stands. -/
theorem plainFrom_cons (hspace : ch ≠ ' ') (before : Option Char) (column : Nat) (cs : List Char) :
    Printer.plainFrom before column (ch :: cs)
      = ch :: Printer.plainFrom (some ch) (column + 1) cs := by
  rw [Printer.plainFrom, if_neg (by simp [hspace])]

/-- Where neither a space nor the end of the text comes next, no word ends. -/
theorem IsPlainTail.endsWord (h : IsPlainTail (ch :: cs))
    (hnext : cs.head?.all (· == ' ') = false) (before : Option Char) (column : Nat) :
    Cursor.endsWord (Printer.plainFrom before column cs ++ ['\n']).head? = false := by
  obtain ⟨x, more, rfl, hx⟩ : ∃ x more, cs = x :: more ∧ x ≠ ' ' := by
    cases cs with
    | nil => exact absurd hnext (by simp)
    | cons x more => exact ⟨x, more, rfl, by simpa using hnext⟩
  have hprintable := h.printable x (by simp)
  rw [plainFrom_cons hx]
  simp [Cursor.endsWord, Cursor.endsOr, isBlank_of_isPrintable hprintable hx,
    isBreak_of_isPrintable hprintable]

/-- A character of the text is one of a run, with what is printed behind it. -/
theorem IsPlainTail.endsRun (h : IsPlainTail (ch :: cs)) (hspace : ch ≠ ' ') (before : Option Char)
    (column : Nat) :
    endsRun false ch (Printer.plainFrom before column cs ++ ['\n']).head? = false := by
  have hch := h.printable ch (by simp)
  have hindicator := h.indicator
  simp only [Style.hasIndicator, Bool.or_eq_false_iff] at hindicator
  simp only [Yaml.endsRun, isBlank_of_isPrintable hch hspace, isBreak_of_isPrintable hch,
    Bool.false_or, Bool.false_and, Bool.or_false, Bool.and_eq_false_iff]
  by_cases hcolon : ch = ':'
  · exact .inr (h.endsWord (by simpa [hcolon] using hindicator.1.1) _ _)
  · exact .inl (by simpa using hcolon)

/-- A run is printed for a text that begins with one. -/
theorem IsPlainTail.beginsRun_cons (h : IsPlainTail (ch :: cs)) (hspace : ch ≠ ' ')
    (hmark : ch ≠ '#') (before : Option Char) (column : Nat) :
    BeginsRun (Printer.plainFrom before column (ch :: cs) ++ ['\n']) := by
  rw [plainFrom_cons hspace]
  exact ⟨ch, _, rfl, hmark, h.endsRun hspace _ _⟩

theorem IsPlainTail.head_behind_space (h : IsPlainTail (' ' :: cs)) : cs.head? ≠ some '#' := by
  have hindicator := h.indicator
  simp only [Style.hasIndicator, Bool.or_eq_false_iff] at hindicator
  simpa using hindicator.1.2

/-- Behind a space, a run is printed, though perhaps behind more spaces. -/
theorem IsPlainTail.beginsRun (h : IsPlainTail (' ' :: cs)) (column : Nat) :
    BeginsRun ((Printer.plainFrom (some ' ') column cs ++ ['\n']).dropWhile (· == ' ')) := by
  induction cs generalizing column with
  | nil => exact absurd rfl h.last
  | cons ch cs ih =>
    by_cases hspace : ch = ' '
    · subst hspace
      have hprinted : Printer.plainFrom (some ' ') column (' ' :: cs)
          = ' ' :: Printer.plainFrom (some ' ') (column + 1) cs := by
        rw [Printer.plainFrom, if_neg (by simp [Printer.breaksAt])]
      rw [hprinted]
      exact ih h.tail _
    · have hmark : ch ≠ '#' := by simpa using h.head_behind_space
      have hrun := h.tail.beginsRun_cons hspace hmark (some ' ') column
      rw [plainFrom_cons hspace] at hrun ⊢
      rwa [List.cons_append, List.dropWhile_cons_of_neg (by simp [hspace])]

/-- **What is printed plainly is read back**, from within the text on. -/
theorem continues_plainFrom (hindent : 0 < indent) (hmargin : indent ≤ Printer.marginWidth)
    (h : IsPlainTail cs) (before : Option Char) (column : Nat) :
    Continues indent (Printer.plainFrom before column cs ++ ['\n']) cs := by
  induction cs generalizing before column with
  | nil => exact continues_end hindent
  | cons ch cs ih =>
    by_cases hspace : ch = ' '
    · subst hspace
      unfold Printer.plainFrom
      split
      · next hfull =>
        -- The line is broken at the space, and goes on with another character.
        obtain ⟨x, more, rfl, hx⟩ : ∃ x more, cs = x :: more ∧ x ≠ ' ' := by
          simp only [Printer.breaksAt, Bool.and_eq_true] at hfull
          cases cs with
          | nil => exact absurd hfull.2.2 (by simp)
          | cons x more => exact ⟨x, more, rfl, by simpa using hfull.2.2⟩
        have hmark : x ≠ '#' := by simpa using h.head_behind_space
        rw [List.append_assoc]
        exact (ih h.tail _ _).lineBreak (h.tail.beginsRun_cons hx hmark _ _) hmargin
      · exact (ih h.tail _ _).space (h.beginsRun _)
    · rw [plainFrom_cons hspace]
      exact (ih h.tail _ _).cons (h.endsRun hspace _ _)
        (isBreak_of_isPrintable (h.printable ch (by simp)))

/-- What is known of a text that is written plainly. -/
theorem exists_of_fitsPlain (hescapes : Style.needsEscapes cs = false)
    (hfits : Style.fitsPlain cs = true) :
    Tag.ofPlain cs = Tag.str ∧ IsPlainTail cs ∧
      ∃ x more, cs = x :: more ∧ x ≠ ' ' ∧ Style.beginsIndicator (x :: more) = false := by
  simp only [Style.fitsPlain, Bool.and_eq_true, Bool.not_eq_true', Bool.or_eq_false_iff,
    beq_iff_eq] at hfits
  obtain ⟨⟨⟨⟨hlines, houter⟩, hbegins⟩, hindicator⟩, htag⟩ := hfits
  simp only [Style.hasOuterSpace, Bool.or_eq_false_iff, beq_eq_false_iff_ne] at houter
  simp only [Style.needsEscapes, Bool.or_eq_false_iff] at hescapes
  have hprintable : ∀ x ∈ cs, Style.isPrintable x = true := by
    intro x hx
    have hline : x ≠ '\n' := by
      rintro rfl
      simp [hx] at hlines
    have hany := hescapes.1.1
    rw [List.any_eq_false] at hany
    simpa [hline] using hany x hx
  refine ⟨htag, ⟨hprintable, hindicator, houter.2⟩, ?_⟩
  cases cs with
  | nil => exact absurd htag (by decide)
  | cons x more => exact ⟨x, more, rfl, by simpa using houter.1, hbegins⟩

theorem not_mark_of_beginsIndicator (h : Style.beginsIndicator (ch :: cs) = false) : ch ≠ '#' := by
  rintro rfl
  have hleading : Style.leadingIndicators.contains '#' = true := by decide
  rw [Style.beginsIndicator, hleading] at h
  exact absurd h (by simp)

/-- **A text that a plain scalar can be is read back from one**, at the end of the text that it
stands in. -/
theorem scanPlain_printed (hindent : 0 < indent) (hmargin : indent ≤ Printer.marginWidth)
    (hescapes : Style.needsEscapes cs = false) (hfits : Style.fitsPlain cs = true)
    {column : Nat} (hc : c.rest = Printer.plainFrom none column cs ++ ['\n'])
    (hcolumn : indent ≤ c.column) :
    ∃ d, scanPlain false indent c = ⟨cs, d, true⟩ ∧ d.rest = [] ∧ d.column = 0 := by
  obtain ⟨-, htail, x, more, rfl, hspace, hbegins⟩ := exists_of_fitsPlain hescapes hfits
  have hmark := not_mark_of_beginsIndicator hbegins
  have hrun : BeginsRun c.rest := by
    rw [hc]
    exact htail.beginsRun_cons hspace hmark _ _
  obtain ⟨d, hd, hends⟩ := continues_plainFrom hindent hmargin htail _ _ c hc hcolumn
  exact ⟨d, by rw [scanPlain, plainFrom_eq hrun, hd]; rfl, hends⟩

end PerfLedger.Yaml
