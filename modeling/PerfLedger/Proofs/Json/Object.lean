import PerfLedger.Json.Reader
import PerfLedger.Proofs.Json.String

/-!
# Written objects

An object that holds a string under a key may be written in many ways: key and value like any
strings, blanks around them and around the whole, and earlier entries of the key in front, of which
nothing is left (`WritesObject`). All these texts are read as objects whose last entry is that of
the key (`parse_writesObject`).
-/

namespace PerfLedger.Json

/-! ## Ways to write an object -/

/-- Blanks between the parts of a text. -/
def Blanks (w : List Char) : Prop :=
  ∀ c ∈ w, c ∈ [' ', '\t', '\n', '\r']

/-- An entry of a string under a key. -/
inductive WritesEntry (key value : List Char) : List Char → Prop where
  | entry {k v a b c d : List Char} (writesKey : Writes key k) (writesValue : Writes value v)
      (beforeKey : Blanks a) (behindKey : Blanks b) (beforeValue : Blanks c)
      (behindValue : Blanks d) :
      WritesEntry key value (a ++ '"' :: k ++ '"' :: b ++ ':' :: c ++ '"' :: v ++ '"' :: d)

/-- Entries under a key, of which the last one counts. -/
inductive WritesEntries (key : List Char) : List Char → List Char → Prop where
  | last {value w : List Char} (entry : WritesEntry key value w) : WritesEntries key value w
  | more {earlier value w ws : List Char} (entry : WritesEntry key earlier w)
      (entries : WritesEntries key value ws) : WritesEntries key value (w ++ ',' :: ws)

/-- An object that holds a string under a key, and nothing else. -/
inductive WritesObject (key value : List Char) : List Char → Prop where
  | object {a b w : List Char} (entries : WritesEntries key value w) (before : Blanks a)
      (behind : Blanks b) : WritesObject key value (a ++ '\x7b' :: w ++ '\x7d' :: b)

/-! ## Reading -/

variable {key value w rest : List Char} {c : Char} {depth : Nat}

theorem blanks_nil : Blanks [] :=
  List.forall_mem_nil _

theorem skip_blanks (h : Blanks w) (rest : List Char) : skip (w ++ rest) = skip rest := by
  refine List.dropWhile_append_of_pos fun c hc => ?_
  have hblank : ∀ c ∈ [' ', '\t', '\n', '\r'], isBlank c = true := by simp [isBlank]
  exact hblank c (h c hc)

theorem skip_cons (h : isBlank c = false) (rest : List Char) : skip (c :: rest) = c :: rest := by
  rw [skip, List.dropWhile_cons, h]
  rfl

/-- The parts of an entry that are read one after the other: its key, its value, and the blanks
behind it. -/
theorem exists_reads_of_writesEntry (h : WritesEntry key value w) (rest : List Char) :
    ∃ body more string tail, skip (w ++ rest) = '"' :: body ∧ readKey body = .ok (key, more) ∧
      skip more = '"' :: string ∧ readString string = .ok (value, tail) ∧
      skip tail = skip rest := by
  obtain @⟨k, v, a, b, c, d, hkey, hvalue, ha, hb, hc, hd⟩ := h
  refine ⟨k ++ '"' :: (b ++ ':' :: (c ++ '"' :: (v ++ '"' :: (d ++ rest)))),
    c ++ '"' :: (v ++ '"' :: (d ++ rest)), v ++ '"' :: (d ++ rest), d ++ rest, ?_, ?_, ?_, ?_, ?_⟩
  · simp only [List.append_assoc, List.cons_append, skip_blanks ha]
    exact skip_cons (by decide) _
  · rw [readKey, readString_writes hkey]
    simp only [bind, Except.bind, skip_blanks hb, skip_cons (show isBlank ':' = false by decide)]
  · rw [skip_blanks hc, skip_cons (by decide)]
  · exact readString_writes hvalue _
  · exact skip_blanks hd rest

/-- An entry that is the last one ends at the brace. -/
theorem readEntries_last (fuel : Nat) (h : WritesEntry key value w) (hd : depth < depthLimit)
    (rest : List Char) : ∃ body, skip (w ++ '\x7d' :: rest) = '"' :: body ∧
      readEntries (fuel + 2) depth body
        = .ok ([(.text (String.ofList key), .text (String.ofList value))], rest) := by
  obtain ⟨body, more, string, tail, hbody, hkey, hmore, hstring, htail⟩ :=
    exists_reads_of_writesEntry h ('\x7d' :: rest)
  rw [skip_cons (by decide)] at htail
  refine ⟨body, hbody, ?_⟩
  simp only [readEntries, readValue, hkey, hmore, hstring, htail, bind, Except.bind, pure,
    Except.pure, if_neg (Nat.not_le.mpr hd)]

/-- Behind another entry and its comma the entries go on. -/
theorem readEntries_more {fuel : Nat} {ws last : List Char} {es : List (Value × Value)}
    (h : WritesEntry key value w) (hd : depth < depthLimit) (hws : skip ws = '"' :: last)
    (hes : readEntries (fuel + 1) depth last = .ok (es, rest)) :
    ∃ body, skip (w ++ ',' :: ws) = '"' :: body ∧ readEntries (fuel + 2) depth body
      = .ok ((.text (String.ofList key), .text (String.ofList value)) :: es, rest) := by
  obtain ⟨body, more, string, tail, hbody, hkey, hmore, hstring, htail⟩ :=
    exists_reads_of_writesEntry h (',' :: ws)
  rw [skip_cons (by decide)] at htail
  refine ⟨body, hbody, ?_⟩
  rw [readEntries]
  simp only [readValue, hkey, hmore, hstring, htail, hws, hes, bind, Except.bind, pure,
    Except.pure, if_neg (Nat.not_le.mpr hd)]

theorem two_le_length (h : WritesEntry key value w) : 2 ≤ w.length := by
  obtain ⟨-, -, -, -, -, -⟩ := h
  simp only [List.length_append, List.length_cons]
  omega

/-- Entries are read up to the brace, and the last of them is the one that counts. -/
theorem readEntries_writes {fuel : Nat} (h : WritesEntries key value w) (hfuel : w.length ≤ fuel)
    (hd : depth < depthLimit) (rest : List Char) :
    ∃ body before, skip (w ++ '\x7d' :: rest) = '"' :: body ∧ readEntries fuel depth body
      = .ok (before ++ [(.text (String.ofList key), .text (String.ofList value))], rest) := by
  -- Each entry takes one unit of fuel and is at least two characters long.
  induction h generalizing fuel with
  | last entry =>
    have := two_le_length entry
    obtain ⟨fuel, rfl⟩ := Nat.exists_eq_add_of_le' (Nat.le_trans this hfuel)
    obtain ⟨body, hbody, hread⟩ := readEntries_last fuel entry hd rest
    exact ⟨body, [], hbody, hread⟩
  | @more earlier value w ws entry _ ih =>
    have := two_le_length entry
    rw [List.length_append, List.length_cons] at hfuel
    obtain ⟨fuel, rfl⟩ := Nat.exists_eq_add_of_le' (show 2 ≤ fuel by omega)
    have hws : ws.length ≤ fuel + 1 := by omega
    obtain ⟨last, before, hlast, hread⟩ := ih hws
    obtain ⟨body, hbody, hread⟩ := readEntries_more entry hd hlast hread
    rw [List.append_assoc, List.cons_append]
    exact ⟨body, _ :: before, hbody, hread⟩

/-- **However an object is written, its last entry is read.** -/
theorem parse_writesObject {text : String} (h : WritesObject key value text.toList) :
    ∃ before, parse text = .ok
      (.dict (before ++ [(.text (String.ofList key), .text (String.ofList value))])) := by
  generalize hcs : text.toList = cs at h
  obtain @⟨a, b, w, entries, ha, hb⟩ := h
  have hskip : skip (a ++ '\x7b' :: w ++ '\x7d' :: b) = '\x7b' :: (w ++ '\x7d' :: b) := by
    rw [List.append_assoc, skip_blanks ha, List.cons_append, skip_cons (by decide)]
  have hend : skip b = [] := by
    rw [← List.append_nil b, skip_blanks hb]
    rfl
  have hfuel : w.length ≤ ('\x7b' :: (w ++ '\x7d' :: b)).length := by
    simp only [List.length_cons, List.length_append]
    omega
  have hdepth : 0 < depthLimit := by decide
  obtain ⟨body, before, hbody, hread⟩ := readEntries_writes entries hfuel hdepth b
  refine ⟨before, ?_⟩
  simp only [parse, hcs, hskip, readValue, hbody, hread, bind, Except.bind, pure, Except.pure, hend]

end PerfLedger.Json
