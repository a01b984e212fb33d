import PerfLedger.Proofs.Yaml.Cursor

/-!
# Quoted scalars, read back

What is printed between quotes is read back as the characters that were printed. Whether they are
does not depend on the place, but only on the text from there on (`Spells`), so that the lemmas are
about texts: one for each kind of character, with what follows it left open.

A gap is read as a whole, while it is printed character by character. The lemma for a space
therefore asks that the spaces end in front of something else than a line end (`IsSolid`), and line
ends are taken together (`Skips`).
-/

namespace PerfLedger.Yaml

/-! ## Reading from a text on -/

/-- Wherever a text stands, characters are read from it up to the closing quote, and a text is left
behind that. -/
def Spells (double : Bool) (text : List Char) (xs : List (Option Char)) (rest : List Char) : Prop :=
  ∀ c : Cursor, c.rest = text → ∃ d, quotedFrom double c = .ok (xs, d) ∧ d.rest = rest

/-- Wherever a text stands, line ends are read from it, with the blanks around them, and a text is
left behind those. -/
def Skips (text breaks rest : List Char) : Prop :=
  ∀ c : Cursor, c.rest = text → ∃ d, quotedBreaks c = .ok (breaks, d) ∧ d.rest = rest

/-- Behind its leading blanks, a text goes on without a line end. -/
def IsSolid (text : List Char) : Prop :=
  ∃ x more, text.dropWhile isBlank = x :: more ∧ isBreak x = false

variable {double : Bool} {text rest : List Char} {xs ys : List (Option Char)} {ch : Char}
  {c : Cursor}

theorem isSolid_cons (hblank : isBlank ch = false) (hbreak : isBreak ch = false) :
    IsSolid (ch :: text) :=
  ⟨ch, text, List.dropWhile_cons_of_neg (by simp [hblank]), hbreak⟩

theorem isSolid_space (h : IsSolid text) : IsSolid (' ' :: text) := by
  obtain ⟨x, more, hx, hbreak⟩ := h
  exact ⟨x, more, hx, hbreak⟩

theorem prepend_prepend (xs ys : List (Option Char))
    (r : Except Fault (List (Option Char) × Cursor)) :
    prepend xs (prepend ys r) = prepend (xs ++ ys) r := by
  cases r with
  | error f => rfl
  | ok p => simp [prepend]

theorem joinAll_map_some (cs : List Char) : joinAll? (cs.map some) = some cs := by
  induction cs with
  | nil => rfl
  | cons x cs ih =>
    rw [joinAll?] at ih ⊢
    rw [List.map_cons, List.mapM_cons, ih]
    rfl

/-- A gap between quotes stands for what it is folded to. -/
theorem quotedFrom_of_gap {d : Cursor} {gap : List Char}
    (hc : c.rest = ch :: text) (hch : (isBlank ch || isBreak ch) = true)
    (hgap : quotedGap c = .ok (gap, d)) :
    quotedFrom double c = prepend (gap.map some) (quotedFrom double d) := by
  rw [quotedFrom]
  split
  · next h => exact absurd (hc.symm.trans h) (by simp)
  · next ch' more h =>
    obtain ⟨rfl, rfl⟩ := List.cons.inj (hc.symm.trans h)
    rw [dif_pos hch]
    split
    · next h' => exact absurd (hgap.symm.trans h') (by simp)
    · next h' =>
      obtain ⟨rfl, rfl⟩ := Prod.mk.inj (Except.ok.inj (hgap.symm.trans h'))
      rfl

/-! ## Gaps -/

theorem quotedGap_of_isSolid (h : IsSolid c.rest) :
    quotedGap c = .ok (c.rest.takeWhile isBlank, c.skipWhile isBlank) := by
  obtain ⟨x, more, hx, hbreak⟩ := h
  have hrest : (c.skipWhile isBlank).rest = x :: more := by rw [Cursor.rest_skipWhile, hx]
  have hnone : (c.skipWhile isBlank).breakAt? = none :=
    Cursor.breakAt?_of_head (by simp [hrest, hbreak])
  simp only [quotedGap, hnone, hrest, reduceCtorEq, if_false]

/-- **A space between quotes stands for itself**, if no line end follows the blanks. -/
theorem Spells.space (h : Spells double text xs rest) (hsolid : IsSolid text) :
    Spells double (' ' :: text) (some ' ' :: xs) rest := by
  intro c hc
  have hrest : (c.advance 1).rest = text := by simp [hc]
  obtain ⟨d, hd, hdrest⟩ := h (c.advance 1) hrest
  refine ⟨d, ?_, hdrest⟩
  have hgap : quotedGap c
      = .ok (' ' :: text.takeWhile isBlank, (c.advance 1).skipWhile isBlank) := by
    rw [quotedGap_of_isSolid (by rw [hc]; exact isSolid_space hsolid),
      Cursor.skipWhile_cons hc rfl, hc]
    rfl
  rw [quotedFrom_of_gap hc rfl hgap]
  -- The blanks behind the space are a gap of their own, or there are none.
  have hmore : quotedFrom double (c.advance 1) = prepend ((text.takeWhile isBlank).map some)
      (quotedFrom double ((c.advance 1).skipWhile isBlank)) := by
    obtain ⟨x, more, hx, hbreak⟩ := id hsolid
    cases text with
    | nil => exact absurd hx (by simp)
    | cons y text =>
      by_cases hy : isBlank y = true
      · refine quotedFrom_of_gap hrest (by simp [hy]) ?_
        rw [quotedGap_of_isSolid (by rw [hrest]; exact hsolid), hrest]
      · have hhead : ∀ x ∈ (c.advance 1).rest.head?, isBlank x = false := by
          rw [hrest]
          simpa using hy
        rw [Cursor.skipWhile_of_head hhead, List.takeWhile_cons_of_neg hy]
        cases quotedFrom double (c.advance 1) <;> rfl
  have hone : (' ' :: text.takeWhile isBlank).map some
      = [some ' '] ++ (text.takeWhile isBlank).map some := rfl
  rw [hone, ← prepend_prepend, ← hmore, hd]
  rfl

/-- The blanks of a line that goes on end the line ends. -/
theorem skips_of_isSolid (h : IsSolid text) (hmark : ∀ c : Cursor, c.rest = text →
    c.seesDocumentMark = false) : Skips text [] (text.dropWhile isBlank) := by
  intro c hc
  have hrest : (c.skipWhile isBlank).rest = text.dropWhile isBlank := by
    rw [Cursor.rest_skipWhile, hc]
  refine ⟨c.skipWhile isBlank, ?_, hrest⟩
  obtain ⟨x, more, hx, hbreak⟩ := h
  have hnone : (c.skipWhile isBlank).breakAt? = none :=
    Cursor.breakAt?_of_head (by simp [hrest, hx, hbreak])
  rw [quotedBreaks, hmark c hc, if_neg (by simp)]
  split
  · rfl
  · next h' => exact absurd (hnone.symm.trans h') (by simp)

/-- The indentation of a line that goes on is left out. -/
theorem skips_margin (text : List Char) (hblank : isBlank ch = false)
    (hbreak : isBreak ch = false) : Skips (Printer.margin ++ ch :: text) [] (ch :: text) := by
  have hdrop : (Printer.margin ++ ch :: text).dropWhile isBlank = ch :: text := by
    show (ch :: text).dropWhile isBlank = ch :: text
    rw [List.dropWhile_cons_of_neg (by simp [hblank])]
  have hall : Skips (Printer.margin ++ ch :: text) []
      ((Printer.margin ++ ch :: text).dropWhile isBlank) :=
    skips_of_isSolid ⟨ch, text, hdrop, hbreak⟩
      fun c hc => Cursor.not_seesDocumentMark (by decide) (by decide) hc
  rwa [hdrop] at hall

/-- Line ends stand for themselves behind a line end. -/
theorem Skips.lineFeed {breaks : List Char} (h : Skips text breaks rest) :
    Skips ('\n' :: text) ('\n' :: breaks) rest := by
  intro c hc
  obtain ⟨d, hd, hdrest⟩ := h (c.advance 1) (by simp [hc])
  refine ⟨d, ?_, hdrest⟩
  have hskip : c.skipWhile isBlank = c := Cursor.skipWhile_of_head (by simp [hc]; rfl)
  have hbreak : (c.skipWhile isBlank).breakAt? = some ('\n', c.advance 1) := by
    rw [hskip, Cursor.breakAt?_lineFeed hc]
  rw [quotedBreaks, Cursor.not_seesDocumentMark (by decide) (by decide) hc, if_neg (by simp)]
  split
  · next h' => exact absurd (hbreak.symm.trans h') (by simp)
  · next h' =>
    obtain ⟨rfl, rfl⟩ := Prod.mk.inj (Option.some.inj (hbreak.symm.trans h'))
    rw [hd]

/-- **A line end between quotes is folded** with the line ends behind it. -/
theorem Spells.lineFeed {breaks more : List Char} (hskips : Skips text breaks more)
    (h : Spells double more xs rest) :
    Spells double ('\n' :: text) ((foldBreaks '\n' breaks).map some ++ xs) rest := by
  intro c hc
  obtain ⟨e, he, herest⟩ := hskips (c.advance 1) (by simp [hc])
  obtain ⟨d, hd, hdrest⟩ := h e herest
  refine ⟨d, ?_, hdrest⟩
  have hskip : c.skipWhile isBlank = c := Cursor.skipWhile_of_head (by simp [hc]; rfl)
  have hgap : quotedGap c = .ok (foldBreaks '\n' breaks, e) := by
    simp only [quotedGap, hskip, Cursor.breakAt?_lineFeed hc, he]
  rw [quotedFrom_of_gap hc rfl hgap, hd]
  rfl

end PerfLedger.Yaml
