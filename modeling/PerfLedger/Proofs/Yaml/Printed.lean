import PerfLedger.Proofs.Yaml.Entry

/-!
# What is printed

A printed entry is pure ASCII, of printable characters and line feeds, whatever its text is. So
nothing is changed or refused before its tokens are read, and it is read back as its entry.
-/

namespace PerfLedger.Yaml

variable {key cs : List Char} {ch : Char}

/-- A printable character or a line feed. -/
def isPrinted (ch : Char) : Bool :=
  Style.isPrintable ch || ch == '\n'

/-! ## Styles -/

namespace Printer

theorem all_lineBreak : lineBreak.all isPrinted = true := by decide

theorem all_plainFrom (h : cs.all isPrinted = true) (before : Option Char) (column : Nat) :
    (plainFrom before column cs).all isPrinted = true := by
  induction cs generalizing before column with
  | nil => rfl
  | cons ch cs ih =>
    simp only [List.all_cons, Bool.and_eq_true] at h
    unfold plainFrom
    split
    · rw [List.all_append, all_lineBreak, ih h.2, Bool.and_self]
    · rw [List.all_cons, h.1, ih h.2, Bool.and_self]

theorem all_singleBreak (before after : Option Char) :
    (singleBreak before after).all isPrinted = true := by
  unfold singleBreak
  split <;> split <;> decide

theorem all_singleFrom (h : cs.all isPrinted = true) (before : Option Char) (column : Nat) :
    (singleFrom before column cs).all isPrinted = true := by
  induction cs generalizing before column with
  | nil => rfl
  | cons ch cs ih =>
    simp only [List.all_cons, Bool.and_eq_true] at h
    have hquote : isPrinted '\'' = true := by decide
    unfold singleFrom
    split
    · rw [List.all_append, all_lineBreak, ih h.2, Bool.and_self]
    · split
      · rw [List.all_append, all_singleBreak, ih h.2, Bool.and_self]
      · split
        · rw [List.all_cons, List.all_cons, hquote, ih h.2, Bool.and_self, Bool.and_self]
        · rw [List.all_cons, h.1, ih h.2, Bool.and_self]

theorem all_hexDigits (width n : Nat) : (hexDigits width n).all isPrinted = true := by
  have hall : ∀ d < 16, isPrinted (Text.hexDigit d).toUpper = true := by decide
  induction width generalizing n with
  | zero => rfl
  | succ k ih =>
    rw [hexDigits_succ, List.all_append, ih, List.all_cons, hall _ (Nat.mod_lt n (by decide))]
    rfl

/-- The escape of any character. -/
theorem all_escape (ch : Char) : (escape ch).all isPrinted = true := by
  have hletters : (['\\', 'x', 'u', 'U'].all isPrinted) = true := by decide
  simp only [List.all_cons, Bool.and_eq_true] at hletters
  unfold escape
  split
  · next e hfind =>
    have hnames : ∀ e ∈ escapes, ((escapes.find? fun x => x.2 == e.2).all
        fun x => isPrinted x.1) = true := by decide
    have hsnd : e.2 = ch := by simpa using List.find?_some hfind
    have hname := hnames e (List.mem_of_find?_eq_some hfind)
    rw [hsnd, hfind] at hname
    rw [List.all_cons, List.all_cons, hletters.1]
    simpa using hname
  · dsimp only
    split
    · simp [all_hexDigits, hletters]
    · split <;> simp [all_hexDigits, hletters]

theorem all_escapedBreak (after : Option Char) : (escapedBreak after).all isPrinted = true := by
  unfold escapedBreak
  split <;> decide

theorem isPrinted_of_isLiteral (h : isLiteral ch = true) : isPrinted ch = true := by
  simp only [isLiteral, Bool.and_eq_true] at h
  simp [isPrinted, h.1.1]

/-- Between double quotes, any text is printed in ASCII. -/
theorem all_doubleFrom (escaped : Bool) (column : Nat) (cs : List Char) :
    (doubleFrom escaped column cs).all isPrinted = true := by
  induction cs generalizing escaped column with
  | nil => rfl
  | cons ch cs ih =>
    unfold doubleFrom
    split
    · next hliteral =>
      have hch := isPrinted_of_isLiteral hliteral
      split <;> simp [ih, hch, all_escapedBreak]
    · dsimp only
      split <;> simp [ih, all_escape, all_escapedBreak]

theorem all_string (column : Nat) (cs : List Char) :
    (string column cs).all isPrinted = true := by
  have hquotes : isPrinted '\'' = true ∧ isPrinted '"' = true := by decide
  have htext (h : Style.needsEscapes cs = false) : cs.all isPrinted = true := by
    simp only [Style.needsEscapes, Bool.or_eq_false_iff, List.any_eq_false, Bool.not_eq_true,
      Bool.not_eq_false'] at h
    exact List.all_eq_true.mpr h.1.1
  unfold string Style.ofText
  by_cases hescapes : Style.needsEscapes cs = true
  · simp [hescapes, hquotes, all_doubleFrom]
  rw [Bool.not_eq_true] at hescapes
  by_cases hfits : Style.fitsPlain cs = true
  · simp [hescapes, hfits, all_plainFrom (htext hescapes)]
  · simp [hescapes, hfits, hquotes, all_singleFrom (htext hescapes)]

/-- **A printed entry is pure ASCII**, whatever its text is. -/
theorem all_entry (hkey : key.all isPrinted = true) (cs : List Char) :
    (entry key cs).all isPrinted = true := by
  have hmarks : isPrinted ':' = true ∧ isPrinted ' ' = true ∧ isPrinted '\n' = true := by decide
  simp [entry, hkey, hmarks, all_string]

end Printer

/-! ## Documents -/

theorem isAllowed_of_isPrinted (h : isPrinted ch = true) : Document.isAllowed ch = true := by
  simp only [isPrinted, Style.isPrintable, Bool.or_eq_true, Bool.and_eq_true, decide_eq_true_eq,
    Char.le_def, UInt32.le_iff_toNat_le, beq_iff_eq] at h
  rcases h with ⟨hlow, hhigh⟩ | rfl
  · have hrange : 0x20 ≤ ch.toNat ∧ ch.toNat ≤ 0x7E := ⟨hlow, hhigh⟩
    simp [Document.isAllowed, hrange]
  · decide

/-- A text without carriage returns has line feeds only. -/
theorem lineFeeds_of_isPrinted (h : cs.all isPrinted = true) : Document.lineFeeds cs = cs := by
  have hreturn : isPrinted '\r' = false := by decide
  induction cs with
  | nil => rfl
  | cons ch cs ih =>
    simp only [List.all_cons, Bool.and_eq_true] at h
    have hch : ch ≠ '\r' := by
      rintro rfl
      rw [hreturn] at h
      exact absurd h.1 (by decide)
    rw [Document.lineFeeds, ih h.2, if_neg hch]
    rintro cs' rfl
    exact absurd rfl hch

/-- **A printed entry is read back**: its document holds the key and the text, whatever it is. -/
theorem parse_entry (hkey : IsKeyWord key) (cs : List Char) :
    ∃ d, Document.parse (Printer.entry key cs) = .ok d ∧
      ∀ n, d.value (n + 1) = .dict [(.text (String.ofList key), .text (String.ofList cs))] := by
  have hprinted : (Printer.entry key cs).all isPrinted = true := by
    refine Printer.all_entry ?_ cs
    rw [List.all_eq_true]
    intro x hx
    simp [isPrinted, (hkey.word x hx).1]
  have hallowed : (Printer.entry key cs).all Document.isAllowed = true := by
    rw [List.all_eq_true] at hprinted ⊢
    exact fun x hx => isAllowed_of_isPrinted (hprinted x hx)
  exact parse_entryNodes (lineFeeds_of_isPrinted hprinted) hallowed (readNodes_entry hkey cs)
    (by decide) rfl

end PerfLedger.Yaml
