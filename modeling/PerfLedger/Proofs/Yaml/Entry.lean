import PerfLedger.Proofs.Yaml.Document
import PerfLedger.Proofs.Yaml.DoubleQuoted
import PerfLedger.Proofs.Yaml.Plain
import PerfLedger.Proofs.Yaml.SingleQuoted

/-!
# Printed entries, read back

The lexer takes a printed entry in four steps: the key, which is a candidate then, the colon, which
makes a key of it, the text, and the end. Each step leads from one state, which is known but for its
cursor, to the next one (`behindKey`, `behindColon`, `behindText`, `atEnd`).
-/

namespace PerfLedger.Yaml

variable {key cs text : List Char} {ch : Char} {c : Cursor}

/-! ## Keys -/

/-- A letter or an underscore. -/
def isLetter (ch : Char) : Bool :=
  ch.isAlpha || ch == '_'

/-- A word that can be a key: it is short, made of letters, and read as a string. -/
structure IsKeyWord (key : List Char) : Prop where
  nonempty : key ≠ []
  letters : ∀ x ∈ key, isLetter x = true
  short : key.length ≤ 1024
  string : Tag.ofPlain key = Tag.str

theorem ne_of_isLetter {x : Char} (hx : isLetter x = true) (hch : isLetter ch = false) :
    x ≠ ch := by
  rintro rfl
  rw [hx] at hch
  exact absurd hch (by decide)

theorem isPrintable_of_isLetter (h : isLetter ch = true) : Style.isPrintable ch = true := by
  delta isLetter Char.isAlpha Char.isUpper Char.isLower at h
  simp only [Bool.or_eq_true, Bool.and_eq_true, decide_eq_true_eq, beq_iff_eq,
    UInt32.le_iff_toNat_le, ge_iff_le] at h
  simp only [Style.isPrintable, Bool.and_eq_true, decide_eq_true_eq, Char.le_def,
    UInt32.le_iff_toNat_le]
  rcases h with (h | h) | rfl
  · exact ⟨by grind, by grind⟩
  · exact ⟨by grind, by grind⟩
  · decide

theorem IsKeyWord.word (h : IsKeyWord key) :
    ∀ x ∈ key, Style.isPrintable x = true ∧ x ≠ ' ' ∧ x ≠ ':' := by
  intro x hx
  have hletter := h.letters x hx
  exact ⟨isPrintable_of_isLetter hletter, ne_of_isLetter hletter (by decide),
    ne_of_isLetter hletter (by decide)⟩

namespace Lexer

variable {l m : Lexer} {plain : Bool}

/-! ## First characters -/

/-- A letter begins a plain scalar. -/
theorem beginsPlain_of_isLetter (h : isLetter ch = true) (next : Option Char) :
    beginsPlain false ch next = true := by
  have hindicator : ch ∉ indicators := by
    intro hmem
    have hall : indicators.all (fun x => !isLetter x) = true := by decide
    have hnot := List.all_eq_true.mp hall ch hmem
    rw [h] at hnot
    exact absurd hnot (by decide)
  have hprintable := isPrintable_of_isLetter h
  simp [beginsPlain, isBlank_of_isPrintable hprintable (ne_of_isLetter h (by decide)),
    isBreak_of_isPrintable hprintable, hindicator]

/-- What is printed plainly begins a plain scalar. -/
theorem beginsPlain_of_isPlainTail (h : IsPlainTail (ch :: cs)) (hspace : ch ≠ ' ')
    (hbegins : Style.beginsIndicator (ch :: cs) = false) (before : Option Char) (column : Nat) :
    beginsPlain false ch (Printer.plainFrom before column cs ++ ['\n']).head? = true := by
  have hall : indicators.all (fun x =>
      Style.leadingIndicators.contains x || x == '-' || x == '?' || x == ':') = true := by decide
  have hprintable := h.printable ch (by simp)
  simp only [Style.beginsIndicator, Bool.or_eq_false_iff] at hbegins
  have hindicator := h.indicator
  simp only [Style.hasIndicator, Bool.or_eq_false_iff] at hindicator
  by_cases hmem : ch ∈ indicators
  · -- It is one only in front of a space or of the end.
    have hword : ch = '-' ∨ ch = '?' ∨ ch = ':' := by
      have hcase := List.all_eq_true.mp hall ch hmem
      rw [hbegins.1.1.1] at hcase
      simpa [or_assoc] using hcase
    have hnext : cs.head?.all (· == ' ') = false := by
      rcases hword with rfl | rfl | rfl
      · simpa using hbegins.1.1.2
      · simpa using hbegins.1.1.2
      · simpa using hindicator.1.1
    rw [beginsPlain, h.endsWord hnext]
    simp [hword]
  · simp [beginsPlain, isBlank_of_isPrintable hprintable hspace,
      isBreak_of_isPrintable hprintable, hmem]

/-- Outside flow collections, a character that begins a plain scalar is dispatched to it. -/
theorem readToken_plain (hflow : l.flow = 0)
    (hmark : l.cursor.column = 0 → l.cursor.seesDocumentMark = false)
    (h : beginsPlain false ch (l.cursor.peekAt? 1) = true) : l.readToken ch = l.readPlain := by
  have hlist : indicators = ['-', '?', ':', ',', '[', ']', '\x7b', '\x7d', '#', '&', '*', '!', '|',
    '>', '\'', '"', '%', '@', '\x60'] := by decide
  have hinFlow : l.inFlow = false := by simp [inFlow, hflow]
  have hstart : ¬(l.cursor.column = 0 ∧ l.cursor.seesDocumentMark = true) :=
    fun hboth => by simp [hmark hboth.1] at hboth
  have hplain := h
  simp only [beginsPlain, hlist, Bool.or_eq_true, Bool.and_eq_true, Bool.not_eq_true'] at h
  rcases h with hother | ⟨hends, hindicator⟩
  · simp only [List.contains_cons, List.contains_nil, Bool.or_eq_false_iff,
      beq_eq_false_iff_ne] at hother
    simp [readToken, hinFlow, hother, hstart, hplain]
  · simp only [true_and, beq_iff_eq] at hindicator
    rcases hindicator with rfl | rfl | rfl <;>
      simp [readToken, hinFlow, hends, hstart, hplain]

/-! ## Steps -/

theorem dropStale_of_nil (h : l.candidates = []) : l.dropStale = .ok l := by
  cases l
  cases h
  rfl

theorem unwind_of_outer_nil (houter : l.outer = []) (column : Int) : l.unwind column = l := by
  unfold unwind
  rw [houter]
  split <;> rfl

theorem unwind_of_le {i column : Int} (houter : l.outer = [i]) (h : l.indent ≤ column) :
    l.unwind column = l := by
  unfold unwind
  rw [houter]
  split
  · rfl
  · rw [unwindTo, if_neg (by omega)]

/-- A text that begins with a token. -/
def BeginsToken (text : List Char) : Prop :=
  ∀ x ∈ text.head?, x ≠ ' ' ∧ x ≠ '#' ∧ isBreak x = false

/-- In front of a token, the lexer leaves only the spaces behind that it sees. -/
theorem skipToToken_of_skipSpaces {d : Cursor} (hspaces : l.cursor.skipSpaces = d)
    (h : BeginsToken d.rest) (fuel : Nat) :
    l.skipToToken (fuel + 1) = { l with cursor := d } := by
  have hsees : d.sees (· == '#') = false := by
    cases hrest : d.rest.head? with
    | none => simp [Cursor.sees, Cursor.peek?, hrest]
    | some x => simp [Cursor.sees, Cursor.peek?, hrest, (h x (by simp [hrest])).2.1]
  have hcomment : d.skipComment = d := by
    rw [Cursor.skipComment, if_neg (by simp [hsees])]
  have hbreak : d.breakAt? = none := Cursor.breakAt?_of_head fun x hx => (h x hx).2.2
  simp only [skipToToken, hspaces, hcomment, hbreak]

theorem skipToToken_of_beginsToken (h : BeginsToken l.cursor.rest) (fuel : Nat) :
    l.skipToToken (fuel + 1) = l := by
  have hspaces : l.cursor.skipSpaces = l.cursor :=
    Cursor.skipWhile_of_head fun x hx => by simpa using (h x hx).1
  exact skipToToken_of_skipSpaces hspaces h fuel

/-- At the last line end, the lexer goes on to the end. A key may begin there. -/
theorem skipToToken_lineFeed (hc : l.cursor.rest = ['\n']) (fuel : Nat) :
    l.skipToToken (fuel + 2)
      = { l with cursor := l.cursor.advance 1, keyAllowed := l.keyAllowed || !l.inFlow } := by
  have hspaces : l.cursor.skipSpaces = l.cursor := Cursor.skipWhile_of_head (by simp [hc])
  have hcomment : l.cursor.skipComment = l.cursor := by
    rw [Cursor.skipComment, if_neg (by simp [Cursor.sees, Cursor.peek?, hc])]
  rw [skipToToken]
  simp only [hspaces, hcomment, Cursor.breakAt?_lineFeed hc]
  exact skipToToken_of_beginsToken (by simp [BeginsToken, hc]) fuel

/-- The next token, when the blanks in front of it have been left behind, and no candidate is stale
and no block collection ends there. -/
theorem next_eq (hskip : l.skipToToken (l.cursor.rest.length + 1) = m)
    (hstale : m.dropStale = .ok m) (hunwind : m.unwind m.column = m) :
    l.next = match m.cursor.peek? with
      | none => m.readEnd
      | some ch => m.readToken ch := by
  unfold next
  rw [hskip, hstale]
  show (match (m.unwind m.column).cursor.peek? with
    | none => (m.unwind m.column).readEnd
    | some ch => (m.unwind m.column).readToken ch) = _
  rw [hunwind]

theorem next_of_peek (hskip : l.skipToToken (l.cursor.rest.length + 1) = m)
    (hstale : m.dropStale = .ok m) (hunwind : m.unwind m.column = m)
    (hpeek : m.cursor.peek? = some ch) : l.next = m.readToken ch := by
  rw [next_eq hskip hstale hunwind, hpeek]

theorem next_of_end (hskip : l.skipToToken (l.cursor.rest.length + 1) = m)
    (hstale : m.dropStale = .ok m) (hunwind : m.unwind m.column = m)
    (hpeek : m.cursor.peek? = none) : l.next = m.readEnd := by
  rw [next_eq hskip hstale hunwind, hpeek]

/-! ## States -/

/-- The lexer behind the key, which is a candidate. -/
def behindKey (key : List Char) (c : Cursor) : Lexer where
  cursor := c
  tokens := [.streamStart, .scalar true (some key)]
  keyAllowed := false
  candidates := [(0, ⟨1, false, 0, 0, 0⟩)]

/-- The lexer behind the colon, in a block mapping. -/
def behindColon (key : List Char) (c : Cursor) : Lexer where
  cursor := c
  tokens := [.streamStart, .blockMappingStart, .key, .scalar true (some key), .value]
  indent := 0
  outer := [-1]
  keyAllowed := false

/-- The lexer behind the text, which was plain or not. -/
def behindText (key : List Char) (plain : Bool) (text : List Char) (c : Cursor) : Lexer where
  cursor := c
  tokens := [.streamStart, .blockMappingStart, .key, .scalar true (some key), .value,
    .scalar plain (some text)]
  indent := 0
  outer := [-1]
  keyAllowed := plain

/-- The lexer at the end. -/
def atEnd (key : List Char) (plain : Bool) (text : List Char) (c : Cursor) : Lexer where
  cursor := c
  tokens := [.streamStart, .blockMappingStart, .key, .scalar true (some key), .value,
    .scalar plain (some text), .blockEnd, .streamEnd]
  keyAllowed := false
  done := true

/-- **The key is read first.** -/
theorem next_key (hkey : IsKeyWord key) (htext : text = key ++ ':' :: ' ' :: cs) :
    ∃ c, (new text).next = .ok (behindKey key c) ∧
      c.rest = ':' :: ' ' :: cs ∧ c.line = 0 ∧ c.index ≤ 1024 := by
  obtain ⟨x, more, hcons⟩ := List.exists_cons_of_ne_nil hkey.nonempty
  have hletter := hkey.letters x (by simp [hcons])
  have hprintable := isPrintable_of_isLetter hletter
  have hhead : text.head? = some x := by rw [htext, hcons]; rfl
  have hbegins : BeginsToken (new text).cursor.rest := by
    intro y hy
    obtain rfl : x = y := by simpa [new, hhead] using hy
    exact ⟨ne_of_isLetter hletter (by decide), ne_of_isLetter hletter (by decide),
      isBreak_of_isPrintable hprintable⟩
  have hmark : (new text).cursor.seesDocumentMark = false :=
    Cursor.not_seesDocumentMark (ne_of_isLetter hletter (by decide))
      (ne_of_isLetter hletter (by decide)) (show text = x :: _ by rw [htext, hcons]; rfl)
  have hscan : scanPlain false 0 (new text).cursor
      = ⟨key, (new text).cursor.advance key.length, false⟩ :=
    scanPlain_word hkey.nonempty hkey.word
      (fun hmem => ne_of_isLetter (hkey.letters _ hmem) (by decide) rfl) htext
  have hread : (new text).readPlain
      = (let p := scanPlain false 0 (new text).cursor
        .ok { behindKey p.text p.after with keyAllowed := p.crossed }) := rfl
  have hnext : (new text).next = .ok (behindKey key ((new text).cursor.advance key.length)) := by
    rw [next_of_peek (skipToToken_of_beginsToken hbegins _) (dropStale_of_nil rfl)
      (unwind_of_outer_nil rfl _) hhead,
      readToken_plain rfl (fun _ => hmark) (beginsPlain_of_isLetter hletter _), hread, hscan]
    rfl
  obtain ⟨hline, hindex⟩ := @Cursor.advance_word (new text).cursor _ key
    (fun y hy => isBreak_of_isPrintable (hkey.word y hy).1) htext
  have hshort := hkey.short
  refine ⟨_, hnext, ?_, hline, ?_⟩
  · simp [new, htext]
  · rw [hindex]
    simpa [new] using hshort

/-- **The colon makes a key of it.** -/
theorem next_colon (hc : c.rest = ':' :: ' ' :: text) (hline : c.line = 0)
    (hindex : c.index ≤ 1024) :
    (behindKey key c).dropStale = .ok (behindKey key c) ∧
      (behindKey key c).next = .ok (behindColon key (c.advance 1)) := by
  have hstale : (behindKey key c).dropStale = .ok (behindKey key c) := by
    have hfresh : isStale c ⟨1, false, 0, 0, 0⟩ = false := by
      simp only [isStale, hline, bne_self_eq_false, Bool.false_or, decide_eq_false_iff_not]
      omega
    simp [dropStale, behindKey, hfresh]
  refine ⟨hstale, ?_⟩
  have hbegins : BeginsToken (behindKey key c).cursor.rest := by
    simp [BeginsToken, behindKey, hc, isBreak]
  have hpeek : (behindKey key c).cursor.peek? = some ':' := by
    simp [behindKey, Cursor.peek?, hc]
  have hnext : c.peekAt? 1 = some ' ' := by simp [Cursor.peekAt?, hc]
  have hread : (behindKey key c).readToken ':' = (behindKey key c).readValue := by
    simp [readToken, behindKey, hnext, inFlow, Cursor.endsWord, Cursor.endsOr, isBlank]
  rw [next_of_peek (skipToToken_of_beginsToken hbegins _) hstale (unwind_of_outer_nil rfl _) hpeek,
    hread]
  rfl

/-- Behind the colon and a space, a token is read in the block mapping. -/
theorem next_behindColon (hc : c.rest = ' ' :: ch :: text) (hbegins : BeginsToken (ch :: text)) :
    (behindColon key c).next = (behindColon key (c.advance 1)).readToken ch := by
  have hrest : (c.advance 1).rest = ch :: text := by simp [hc]
  have hspaces : (behindColon key c).cursor.skipSpaces = c.advance 1 := by
    show c.skipWhile _ = c.advance 1
    rw [Cursor.skipWhile_cons hc rfl]
    refine Cursor.skipWhile_of_head ?_
    rw [hrest]
    exact fun x hx => by simpa using (hbegins x hx).1
  have hpeek : (c.advance 1).peek? = some ch := by simp [Cursor.peek?, hc]
  exact next_of_peek (skipToToken_of_skipSpaces hspaces (by rw [hrest]; exact hbegins) _)
    (dropStale_of_nil rfl) (unwind_of_le rfl (Int.natCast_nonneg _)) hpeek

/-- **A plain text is read behind the colon**, and the line end behind it. -/
theorem next_plain {column : Nat} (hescapes : Style.needsEscapes cs = false)
    (hfits : Style.fitsPlain cs = true)
    (hc : c.rest = ' ' :: (Printer.plainFrom none column cs ++ ['\n'])) :
    ∃ d, (behindColon key c).next = .ok (behindText key true cs d) ∧ d.rest = [] ∧
      d.column = 0 := by
  have hrest : (c.advance 1).rest = Printer.plainFrom none column cs ++ ['\n'] := by simp [hc]
  have hcolumn : (c.advance 1).column = c.column + 1 := by
    simp [Cursor.advance, hc, Cursor.past, isBreak]
  obtain ⟨d, hscan, hd⟩ := @scanPlain_printed _ 1 cs (by decide) (by decide) hescapes hfits _ hrest
    (by omega)
  refine ⟨d, ?_, hd⟩
  obtain ⟨-, htail, x, more, rfl, hspace, hindicator⟩ := exists_of_fitsPlain hescapes hfits
  have hmark : x ≠ '#' := not_mark_of_beginsIndicator hindicator
  have hbegins : BeginsToken (x :: (Printer.plainFrom (some x) (column + 1) more ++ ['\n'])) := by
    intro y hy
    obtain rfl : x = y := by simpa using hy
    exact ⟨hspace, hmark, isBreak_of_isPrintable (htail.printable x (by simp))⟩
  rw [plainFrom_cons hspace, List.cons_append] at hc
  have hpeek : (c.advance 1).peekAt? 1
      = (Printer.plainFrom (some x) (column + 1) more ++ ['\n']).head? := by
    simp [Cursor.peekAt?, hc, List.head?_eq_getElem?]
  have hplain : (behindColon key (c.advance 1)).readToken x
      = (behindColon key (c.advance 1)).readPlain := by
    refine readToken_plain rfl (fun h0 => ?_) ?_
    · exact absurd (hcolumn.symm.trans h0) (by omega)
    · exact (congrArg _ hpeek).trans (beginsPlain_of_isPlainTail htail hspace hindicator _ _)
  have hread : (behindColon key (c.advance 1)).readPlain
      = (let p := scanPlain false 1 (c.advance 1)
        .ok { behindText key true p.text p.after with keyAllowed := p.crossed }) := rfl
  rw [next_behindColon hc hbegins, hplain, hread, hscan]
  rfl

/-- **A text between quotes is read behind the colon.** -/
theorem next_quoted {double : Bool} {body : List Char}
    (hread : Spells double body (cs.map some) ['\n'])
    (hc : c.rest = ' ' :: (if double then '"' else '\'') :: body) :
    ∃ d, (behindColon key c).next = .ok (behindText key false cs d) ∧ d.rest = ['\n'] := by
  obtain ⟨d, hd, hdrest⟩ := hread ((c.advance 1).advance 1) (by simp [hc])
  refine ⟨d, ?_, hdrest⟩
  have hscan : scanQuoted double (c.advance 1) = .ok (some cs, d) := by
    simp only [scanQuoted, hd]
    show Except.ok (joinAll? (cs.map some), d) = _
    rw [joinAll_map_some]
  have hbegins : BeginsToken ((if double then '"' else '\'') :: body) := by
    cases double <;> simp [BeginsToken, isBreak]
  have htoken : (behindColon key (c.advance 1)).readToken (if double then '"' else '\'')
      = (behindColon key (c.advance 1)).readNode fun c =>
        (scanQuoted double c).map fun p => (.scalar false p.1, p.2) := by
    cases double <;> simp [readToken, behindColon, inFlow]
  rw [next_behindColon hc hbegins, htoken]
  show Except.bind ((scanQuoted double (c.advance 1)).map _) _ = _
  rw [hscan]
  rfl

/-- **A printed text is read behind the colon**, in whatever style. If it is read plainly, it is one
that is read as a string. -/
theorem next_text {column : Nat} (hc : c.rest = ' ' :: (Printer.string column cs ++ ['\n'])) :
    ∃ plain d, (behindColon key c).next = .ok (behindText key plain cs d) ∧
      (d.rest = ['\n'] ∨ d.rest = [] ∧ d.column = 0) ∧
      (plain = true → Tag.ofPlain cs = Tag.str) := by
  by_cases hescapes : Style.needsEscapes cs = true
  · have hprinted : Printer.string column cs ++ ['\n']
        = '"' :: (Printer.doubleFrom false (column + 1) cs ++ '"' :: ['\n']) := by
      simp [Printer.string, Style.ofText, hescapes]
    rw [hprinted] at hc
    obtain ⟨d, hnext, hd⟩ := @next_quoted key cs c true _
      ((spells_doubleFrom cs ['\n']).1 false (column + 1)) hc
    exact ⟨false, d, hnext, .inl hd, by simp⟩
  rw [Bool.not_eq_true] at hescapes
  by_cases hfits : Style.fitsPlain cs = true
  · have hprinted : Printer.string column cs = Printer.plainFrom none column cs := by
      simp [Printer.string, Style.ofText, hescapes, hfits]
    rw [hprinted] at hc
    obtain ⟨d, hnext, hd⟩ := next_plain hescapes hfits hc
    exact ⟨true, d, hnext, .inr hd, fun _ => (exists_of_fitsPlain hescapes hfits).1⟩
  · have hprinted : Printer.string column cs ++ ['\n']
        = '\'' :: (Printer.singleFrom none (column + 1) cs ++ '\'' :: ['\n']) := by
      simp [Printer.string, Style.ofText, hescapes, hfits]
    rw [hprinted] at hc
    obtain ⟨d, hnext, hd⟩ := @next_quoted key cs c false _
      ((spells_singleFrom (by simp) hescapes).1 none (column + 1) (by simp)) hc
    exact ⟨false, d, hnext, .inl hd, by simp⟩

/-- **The end ends the mapping.** -/
theorem next_end (hc : c.rest = ['\n'] ∨ c.rest = [] ∧ c.column = 0) :
    ∃ d, (behindText key plain text c).next = .ok (atEnd key plain text d) := by
  obtain ⟨d, allowed, hskip, hrest, hcolumn⟩ : ∃ d allowed,
      (behindText key plain text c).skipToToken (c.rest.length + 1)
        = { behindText key plain text d with keyAllowed := allowed } ∧
      d.rest = [] ∧ d.column = 0 := by
    rcases hc with hc | ⟨hrest, hcolumn⟩
    · refine ⟨c.advance 1, plain || !(behindText key plain text c).inFlow, ?_, by simp [hc],
        Cursor.column_lineFeed hc⟩
      rw [hc]
      exact @skipToToken_lineFeed (behindText key plain text c) hc 0
    · refine ⟨c, plain, ?_, hrest, hcolumn⟩
      exact skipToToken_of_beginsToken (by simp [BeginsToken, behindText, hrest]) _
  have hpeek : d.peek? = none := by simp [Cursor.peek?, hrest]
  refine ⟨d, ?_⟩
  rw [next_of_end hskip (dropStale_of_nil rfl) (unwind_of_le rfl (Int.natCast_nonneg _)) hpeek]
  rfl

/-! ## Tokens -/

theorem readTokens_of_next (hdone : l.done = false) (hstale : l.dropStale = .ok l)
    (hnext : l.next = .ok m) (fuel seen : Nat) :
    readTokens (fuel + 1) seen l = readTokens fuel (max seen l.settled) m := by
  rw [readTokens, hdone, hstale]
  simp only [Bool.false_eq_true, if_false, hnext]

/-- **The tokens of a printed entry**, none of which is at fault. -/
theorem tokenStream_entry (hkey : IsKeyWord key) (cs : List Char) :
    ∃ plain, (plain = true → Tag.ofPlain cs = Tag.str) ∧
      tokenStream (Printer.entry key cs) = { tokens := [.streamStart, .blockMappingStart, .key,
        .scalar true (some key), .value, .scalar plain (some cs), .blockEnd, .streamEnd] } := by
  obtain ⟨x, more, hcons⟩ := List.exists_cons_of_ne_nil hkey.nonempty
  have hletter := hkey.letters x (by simp [hcons])
  have hmark : (new (Printer.entry key cs)).cursor.peek? ≠ some '\uFEFF' := by
    simpa [Printer.entry, new, Cursor.peek?, hcons] using ne_of_isLetter hletter (by decide)
  have htext : Printer.entry key cs
      = key ++ ':' :: ' ' :: (Printer.string (key.length + 2) cs ++ ['\n']) := by
    simp [Printer.entry]
  obtain ⟨c, hfirst, hc, hline, hindex⟩ := next_key hkey htext
  obtain ⟨hstale, hsecond⟩ := @next_colon key _ c hc hline hindex
  have hvalue : (c.advance 1).rest = ' ' :: (Printer.string (key.length + 2) cs ++ ['\n']) := by
    simp [hc]
  obtain ⟨plain, d, hthird, hd, hplain⟩ := next_text hvalue
  obtain ⟨e, hfourth⟩ := @next_end key cs d plain hd
  have hfuel : ∃ fuel, (Printer.entry key cs).length + 2 = fuel + 4 := by
    refine ⟨(Printer.entry key cs).length - 2, ?_⟩
    simp only [Printer.entry, List.length_append, List.length_cons]
    omega
  obtain ⟨fuel, hfuel⟩ := hfuel
  refine ⟨plain, hplain, ?_⟩
  simp only [tokenStream, if_neg hmark]
  rw [hfuel, readTokens_of_next rfl (dropStale_of_nil rfl) hfirst,
    readTokens_of_next rfl hstale hsecond, readTokens_of_next rfl (dropStale_of_nil rfl) hthird,
    readTokens_of_next rfl (dropStale_of_nil rfl) hfourth]
  cases fuel <;> rfl

end Lexer

/-- **The nodes of a printed entry.** Both are strings. -/
theorem readNodes_entry (hkey : IsKeyWord key) (cs : List Char) :
    readNodes (Printer.entry key cs) = .ok (some 0,
      entryNodes ⟨Tag.str, .scalar (some key)⟩ ⟨Tag.str, .scalar (some cs)⟩) := by
  obtain ⟨plain, hplain, htokens⟩ := Lexer.tokenStream_entry hkey cs
  have hread : readNodes (Printer.entry key cs) = .ok (some 0,
      entryNodes ⟨Tag.ofPlain key, .scalar (some key)⟩
        ⟨if plain then Tag.ofPlain cs else Tag.str, .scalar (some cs)⟩) := by
    simp only [readNodes, htokens]
    rfl
  have htag : (if plain then Tag.ofPlain cs else Tag.str) = Tag.str := by
    split
    · next h => exact hplain h
    · rfl
  rw [hread, hkey.string, htag]

end PerfLedger.Yaml
