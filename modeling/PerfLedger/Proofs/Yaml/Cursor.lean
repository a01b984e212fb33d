import Mathlib.Data.List.TakeWhile
import PerfLedger.Yaml.Printer

/-!
# Places in a text

What a cursor sees depends on the text from there on, and mostly on its first character. Printable
characters are neither line ends nor, besides the space, blanks.
-/

namespace PerfLedger.Yaml

/-! ## Printable characters -/

theorem isBreak_of_isPrintable {ch : Char} (h : Style.isPrintable ch = true) :
    isBreak ch = false := by
  by_contra hbreak
  rw [Bool.not_eq_false] at hbreak
  simp only [isBreak, Bool.or_eq_true, beq_iff_eq] at hbreak
  rcases hbreak with ((rfl | rfl) | rfl) | rfl <;> exact absurd h (by decide)

theorem isBlank_of_isPrintable {ch : Char} (h : Style.isPrintable ch = true) (hne : ch ≠ ' ') :
    isBlank ch = false := by
  by_contra hblank
  rw [Bool.not_eq_false] at hblank
  simp only [isBlank, Bool.or_eq_true, beq_iff_eq] at hblank
  rcases hblank with rfl | rfl
  · exact hne rfl
  · exact absurd h (by decide)

/-! ## Cursors -/

namespace Cursor

variable {c : Cursor} {ch : Char} {text : List Char}

theorem advance_succ (hc : c.rest = ch :: text) (n : Nat) :
    c.advance (n + 1) = (c.advance 1).advance n := by
  simp only [advance, hc]

theorem skipWhile_cons {test : Char → Bool} (hc : c.rest = ch :: text) (htest : test ch = true) :
    c.skipWhile test = (c.advance 1).skipWhile test := by
  have hrest : (c.advance 1).rest = text := by simp [hc]
  rw [skipWhile, skipWhile, hrest, hc, List.takeWhile_cons_of_pos htest, List.length_cons,
    advance_succ hc]

theorem skipWhile_of_head {test : Char → Bool} (hc : ∀ x ∈ c.rest.head?, test x = false) :
    c.skipWhile test = c := by
  unfold skipWhile
  cases hrest : c.rest with
  | nil => rfl
  | cons x more =>
    rw [hrest] at hc
    rw [List.takeWhile_cons_of_neg (by simp [hc x rfl])]
    rfl

theorem rest_skipWhile (c : Cursor) (test : Char → Bool) :
    (c.skipWhile test).rest = c.rest.dropWhile test := by
  rw [skipWhile, rest_advance]
  calc c.rest.drop (c.rest.takeWhile test).length
      = (c.rest.takeWhile test ++ c.rest.dropWhile test).drop (c.rest.takeWhile test).length := by
        rw [List.takeWhile_append_dropWhile]
    _ = c.rest.dropWhile test := List.drop_left

/-- A character that is no line end does not lead back. -/
theorem column_advance_one (hc : c.rest = ch :: text) (hbreak : isBreak ch = false) :
    c.column ≤ (c.advance 1).column := by
  simp only [advance, hc, past, hbreak, Bool.false_eq_true, if_false]
  split
  · exact Nat.le_refl _
  · exact Nat.le_succ _

/-- Behind a line feed, a line begins. -/
theorem column_lineFeed (hc : c.rest = '\n' :: text) : (c.advance 1).column = 0 := by
  simp [advance, hc, past, isBreak]

/-- Behind a word, the cursor is on the same line. -/
theorem advance_word {word : List Char} (hword : ∀ x ∈ word, isBreak x = false)
    (hc : c.rest = word ++ text) :
    (c.advance word.length).line = c.line ∧
      (c.advance word.length).index = c.index + word.length := by
  induction word generalizing c with
  | nil => exact ⟨rfl, rfl⟩
  | cons x word ih =>
    have hx := hword x (by simp)
    have hpast : (c.advance 1).line = c.line ∧ (c.advance 1).index = c.index + 1 := by
      simp [advance, hc, past, hx]
    obtain ⟨hline, hindex⟩ := @ih (c.advance 1) (fun y hy => hword y (by simp [hy])) (by simp [hc])
    rw [List.length_cons, advance_succ hc, hline, hindex, hpast.1, hpast.2]
    exact ⟨rfl, by omega⟩

theorem column_skipSpaces (c : Cursor) : c.column ≤ c.skipSpaces.column := by
  generalize hrest : c.rest = text
  induction text generalizing c with
  | nil =>
    have hskip : c.skipSpaces = c := skipWhile_of_head (by simp [hrest])
    rw [hskip]
  | cons x more ih =>
    by_cases hx : x = ' '
    · subst hx
      have hskip : c.skipSpaces = (c.advance 1).skipSpaces := skipWhile_cons hrest rfl
      rw [hskip]
      exact (column_advance_one hrest rfl).trans (ih _ (by simp [hrest]))
    · have hskip : c.skipSpaces = c := skipWhile_of_head (by simp [hrest, hx])
      rw [hskip]

theorem breakAt?_of_head (hc : ∀ x ∈ c.rest.head?, isBreak x = false) : c.breakAt? = none := by
  unfold breakAt?
  split
  · next x more hrest => simp [hc x (by simp [hrest])]
  · rfl

theorem breakAt?_lineFeed (hc : c.rest = '\n' :: text) : c.breakAt? = some ('\n', c.advance 1) := by
  unfold breakAt?
  rw [hc]
  rfl

theorem not_seesDocumentMark (h1 : ch ≠ '-') (h2 : ch ≠ '.') (hc : c.rest = ch :: text) :
    c.seesDocumentMark = false := by
  unfold seesDocumentMark
  rw [hc]
  split
  · next h =>
    obtain ⟨rfl, -⟩ := List.cons.inj h
    simp [h1, h2]
  · rfl

end Cursor

end PerfLedger.Yaml
