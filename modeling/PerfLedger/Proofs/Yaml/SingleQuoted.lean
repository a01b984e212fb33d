import PerfLedger.Proofs.Yaml.Quoted

/-!
# Single quotes, read back

A text between single quotes has no escapes: quotes are doubled, the first line end of a row is
doubled, and a line that is too long is broken at a space that stands alone. No space stands beside
a line end, since it would be lost.

A row of line ends is read at once. So two things are proved of a text together: that it is read
back (`IsSpelled`), and that it is read back behind a line end, the rest of the row first
(`IsSkipped`).
-/

namespace PerfLedger.Yaml

variable {text rest : List Char} {xs : List (Option Char)} {ch : Char} {c : Cursor}

/-! ## Characters -/

/-- Between single quotes, a character stands for itself, and a quote does if it is doubled. -/
theorem quotedFrom_single (hc : c.rest = ch :: text) (hch : (isBlank ch || isBreak ch) = false) :
    quotedFrom false c =
      if ch = '\'' then
        if text.head? = some '\'' then prepend [some ch] (quotedFrom false (c.advance 2))
        else .ok ([], c.advance 1)
      else prepend [some ch] (quotedFrom false (c.advance 1)) := by
  rw [quotedFrom]
  split
  · next h => exact absurd (hc.symm.trans h) (by simp)
  · next ch' more h =>
    obtain ⟨rfl, rfl⟩ := List.cons.inj (hc.symm.trans h)
    rw [dif_neg (by simp [hch])]
    rfl

theorem spells_single_end (h : rest.head? ≠ some '\'') : Spells false ('\'' :: rest) [] rest := by
  intro c hc
  refine ⟨c.advance 1, ?_, by simp [hc]⟩
  rw [quotedFrom_single hc rfl, if_pos rfl, if_neg h]

/-- Between single quotes, a character that is no blank and no quote stands for itself. -/
theorem Spells.single (h : Spells false text xs rest) (hch : Style.isPrintable ch = true)
    (hne : ch ≠ ' ') (hquote : ch ≠ '\'') : Spells false (ch :: text) (some ch :: xs) rest := by
  intro c hc
  obtain ⟨d, hd, hdrest⟩ := h (c.advance 1) (by simp [hc])
  refine ⟨d, ?_, hdrest⟩
  rw [quotedFrom_single hc (by simp [isBlank_of_isPrintable hch hne, isBreak_of_isPrintable hch]),
    if_neg hquote, hd]
  rfl

/-- Between single quotes, two quotes stand for one. -/
theorem Spells.quote (h : Spells false text xs rest) :
    Spells false ('\'' :: '\'' :: text) (some '\'' :: xs) rest := by
  intro c hc
  obtain ⟨d, hd, hdrest⟩ := h (c.advance 2) (by simp [hc])
  refine ⟨d, ?_, hdrest⟩
  rw [quotedFrom_single hc rfl, if_pos rfl, List.head?_cons, if_pos rfl, hd]
  rfl

/-! ## Texts without escapes -/

theorem areBeside_cons {a b x : Char} {cs : List Char} (h : Style.areBeside a b (x :: cs) = false) :
    (x = a → cs.head? ≠ some b) ∧ Style.areBeside a b cs = false := by
  cases cs with
  | nil => exact ⟨fun _ => by simp, rfl⟩
  | cons y cs =>
    simp only [Style.areBeside, Bool.or_eq_false_iff, Bool.and_eq_false_iff, beq_eq_false_iff_ne,
      ne_eq] at h
    refine ⟨?_, h.2⟩
    rintro rfl hy
    rcases h.1 with hx | hne
    · exact hx rfl
    · exact hne (by simpa using hy)

/-- What is known of a text that needs no escapes. -/
theorem needsEscapes_cons {cs : List Char} (h : Style.needsEscapes (ch :: cs) = false) :
    (Style.isPrintable ch = true ∨ ch = '\n') ∧ (ch = ' ' → cs.head? ≠ some '\n') ∧
      (ch = '\n' → cs.head? ≠ some ' ') ∧ Style.needsEscapes cs = false := by
  simp only [Style.needsEscapes, List.any_cons, Bool.or_eq_false_iff, Bool.not_eq_false',
    Bool.or_eq_true, beq_iff_eq] at h ⊢
  obtain ⟨⟨⟨hch, hany⟩, hspace⟩, hbreak⟩ := h
  obtain ⟨hspace, hspaces⟩ := areBeside_cons hspace
  obtain ⟨hbreak, hbreaks⟩ := areBeside_cons hbreak
  exact ⟨hch, hspace, hbreak, ⟨hany, hspaces⟩, hbreaks⟩

/-! ## Texts -/

section single

open Printer

variable {cs : List Char} {before : Option Char} {column : Nat}

/-- A character that is neither a space nor a line end is printed first. -/
theorem exists_singleFrom (hspace : ch ≠ ' ') (hbreak : ch ≠ '\n') (before : Option Char)
    (column : Nat) (cs : List Char) :
    ∃ text, singleFrom before column (ch :: cs) = ch :: text := by
  unfold singleFrom
  rw [if_neg (by simp [hspace]), if_neg hbreak]
  split
  · next hquote => exact ⟨_, by rw [hquote]⟩
  · exact ⟨_, rfl⟩

theorem isSolid_singleFrom (h : Style.needsEscapes cs = false) (hhead : cs.head? ≠ some '\n')
    (column : Nat) (rest : List Char) :
    IsSolid (singleFrom (some ' ') column cs ++ '\'' :: rest) := by
  induction cs generalizing column with
  | nil => exact isSolid_cons rfl rfl
  | cons ch cs ih =>
    obtain ⟨hch, hspace, -, hcs⟩ := needsEscapes_cons h
    have hbreak : ch ≠ '\n' := by simpa using hhead
    by_cases hne : ch = ' '
    · subst hne
      have hprinted : singleFrom (some ' ') column (' ' :: cs)
          = ' ' :: singleFrom (some ' ') (column + 1) cs := by
        rw [singleFrom, if_neg (by simp [breaksAt]), if_neg (by decide), if_neg (by decide)]
      rw [hprinted]
      exact isSolid_space (ih hcs (hspace rfl) _)
    · obtain ⟨text, htext⟩ := exists_singleFrom hne hbreak (some ' ') column cs
      have hprintable := hch.resolve_right hbreak
      rw [htext]
      exact isSolid_cons (isBlank_of_isPrintable hprintable hne) (isBreak_of_isPrintable hprintable)

/-- What is printed behind a line end of the text. -/
def behindBreak (cs rest : List Char) : List Char :=
  (if cs.head? = some '\n' then [] else margin) ++ (singleFrom (some '\n') marginWidth cs ++ rest)

/-- Wherever a text is printed, it is read back, unless it goes on with a row of line ends. -/
def IsSpelled (rest cs : List Char) : Prop :=
  ∀ before column, (before = some '\n' → cs.head? ≠ some '\n') →
    Spells false (singleFrom before column cs ++ '\'' :: rest) (cs.map some) rest

/-- What is printed of a text behind a line end is read back in two parts: the line ends that it
begins with, and the others behind them. -/
def IsSkipped (rest cs : List Char) : Prop :=
  ∃ breaks ds more, cs = breaks ++ ds ∧ Skips (behindBreak cs ('\'' :: rest)) breaks more ∧
    Spells false more (ds.map some) rest

variable {rest : List Char}

/-- The first line end of a row is printed twice, and read back with the row. -/
theorem IsSkipped.lineFeed (h : IsSkipped rest cs) : IsSpelled rest ('\n' :: cs) := by
  obtain ⟨breaks, ds, more, rfl, hskips, hmore⟩ := h
  intro before column hbefore
  have hne : before ≠ some '\n' := fun hb => hbefore hb rfl
  have hprinted : singleFrom before column ('\n' :: (breaks ++ ds)) ++ '\'' :: rest
      = '\n' :: '\n' :: behindBreak (breaks ++ ds) ('\'' :: rest) := by
    rw [singleFrom, if_neg (by simp), if_pos rfl]
    simp [singleBreak, hne, behindBreak]
  rw [hprinted]
  simpa [foldBreaks] using Spells.lineFeed hskips.lineFeed hmore

/-- The other line ends of a row are printed once. -/
theorem IsSkipped.next (h : IsSkipped rest cs) : IsSkipped rest ('\n' :: cs) := by
  obtain ⟨breaks, ds, more, rfl, hskips, hmore⟩ := h
  refine ⟨'\n' :: breaks, ds, more, rfl, ?_, hmore⟩
  have hprinted : behindBreak ('\n' :: (breaks ++ ds)) ('\'' :: rest)
      = '\n' :: behindBreak (breaks ++ ds) ('\'' :: rest) := by
    simp [behindBreak, singleFrom, singleBreak]
  rw [hprinted]
  exact hskips.lineFeed

/-- A space is printed as it stands, or as a line end. -/
theorem IsSpelled.space (h : IsSpelled rest cs)
    (hescapes : Style.needsEscapes (' ' :: cs) = false) : IsSpelled rest (' ' :: cs) := by
  obtain ⟨-, hspace, -, hcs⟩ := needsEscapes_cons hescapes
  intro before column _
  by_cases hfull : breaksAt before column cs.head? = true
  · -- The line is broken at the space, and goes on with another character.
    obtain ⟨x, cs, rfl, hxsp⟩ : ∃ x more, cs = x :: more ∧ x ≠ ' ' := by
      simp only [breaksAt, Bool.and_eq_true] at hfull
      cases cs with
      | nil => exact absurd hfull.2 (by simp)
      | cons x more => exact ⟨x, more, rfl, by simpa using hfull.2⟩
    have hxlf : x ≠ '\n' := by simpa using hspace rfl
    have hx := (needsEscapes_cons hcs).1.resolve_right hxlf
    obtain ⟨text, hprinted⟩ := exists_singleFrom hxsp hxlf (some ' ') marginWidth cs
    have hread := h (some ' ') marginWidth (by simp)
    rw [hprinted] at hread
    have hbroken : singleFrom before column (' ' :: x :: cs) ++ '\'' :: rest
        = '\n' :: (margin ++ x :: (text ++ '\'' :: rest)) := by
      rw [singleFrom, if_pos ⟨rfl, hfull⟩, hprinted]
      rfl
    rw [hbroken]
    exact Spells.lineFeed (skips_margin _ (isBlank_of_isPrintable hx hxsp)
      (isBreak_of_isPrintable hx)) hread
  · have hprinted : singleFrom before column (' ' :: cs)
        = ' ' :: singleFrom (some ' ') (column + 1) cs := by
      rw [singleFrom, if_neg (by simp [hfull]), if_neg (by decide), if_neg (by decide)]
    rw [hprinted]
    exact (h _ _ (by simp)).space (isSolid_singleFrom hcs (hspace rfl) _ _)

/-- A character that is no space is printed as it stands, and a quote is printed twice. -/
theorem IsSpelled.cons (h : IsSpelled rest cs) (hch : Style.isPrintable ch = true)
    (hspace : ch ≠ ' ') (hbreak : ch ≠ '\n') : IsSpelled rest (ch :: cs) := by
  intro before column _
  have hread (column : Nat) := h (some ch) column (by simp [hbreak])
  by_cases hquote : ch = '\''
  · subst hquote
    have hprinted : singleFrom before column ('\'' :: cs)
        = '\'' :: '\'' :: singleFrom (some '\'') (column + 2) cs := by
      rw [singleFrom, if_neg (by simp), if_neg (by decide), if_pos rfl]
    rw [hprinted]
    exact (hread _).quote
  · have hprinted : singleFrom before column (ch :: cs)
        = ch :: singleFrom (some ch) (column + 1) cs := by
      rw [singleFrom, if_neg (by simp [hspace]), if_neg hbreak, if_neg hquote]
    rw [hprinted]
    exact (hread _).single hch hspace hquote

/-- Behind a line end, a character that is neither a space nor a line end is indented. -/
theorem IsSpelled.indented (h : IsSpelled rest (ch :: cs)) (hch : Style.isPrintable ch = true)
    (hspace : ch ≠ ' ') (hbreak : ch ≠ '\n') : IsSkipped rest (ch :: cs) := by
  obtain ⟨text, hprinted⟩ := exists_singleFrom hspace hbreak (some '\n') marginWidth cs
  have hread := h (some '\n') marginWidth (by simp [hbreak])
  rw [hprinted] at hread
  refine ⟨[], ch :: cs, ch :: (text ++ '\'' :: rest), rfl, ?_, hread⟩
  have hindented : behindBreak (ch :: cs) ('\'' :: rest)
      = margin ++ ch :: (text ++ '\'' :: rest) := by
    rw [behindBreak, hprinted, if_neg (by simp [hbreak])]
    rfl
  rw [hindented]
  exact skips_margin _ (isBlank_of_isPrintable hch hspace) (isBreak_of_isPrintable hch)

/-- **What is printed between single quotes is read back**, and so is what is printed behind line
ends, which are read first. -/
theorem spells_singleFrom (hrest : rest.head? ≠ some '\'')
    (h : Style.needsEscapes cs = false) :
    IsSpelled rest cs ∧ (cs.head? ≠ some ' ' → IsSkipped rest cs) := by
  induction cs with
  | nil =>
    refine ⟨fun _ _ _ => spells_single_end hrest, fun _ => ?_⟩
    exact ⟨[], [], '\'' :: rest, rfl, skips_margin rest rfl rfl, spells_single_end hrest⟩
  | cons ch cs ih =>
    obtain ⟨hch, hspace, hbreak, hcs⟩ := needsEscapes_cons h
    obtain ⟨hspelled, hskipped⟩ := ih hcs
    by_cases hlf : ch = '\n'
    · subst hlf
      have hbehind := hskipped (hbreak rfl)
      exact ⟨hbehind.lineFeed, fun _ => hbehind.next⟩
    · have hprintable := hch.resolve_right hlf
      by_cases hsp : ch = ' '
      · subst hsp
        exact ⟨hspelled.space h, fun hhead => absurd rfl hhead⟩
      · have hcons := hspelled.cons hprintable hsp hlf
        exact ⟨hcons, fun _ => hcons.indented hprintable hsp hlf⟩

end single

end PerfLedger.Yaml
