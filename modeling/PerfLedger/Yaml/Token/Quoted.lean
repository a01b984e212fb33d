import PerfLedger.Json.Text
import PerfLedger.Yaml.Fault
import PerfLedger.Yaml.Token.Plain

/-!
# Quoted scalars

Between single quotes only the quote has an escape, which is to double it. Between double quotes a
backslash begins an escape; the end of a line can be escaped, too. In both, line ends are folded
like those of plain scalars, and spaces around them are dropped. A mark between documents cannot
stand at the start of a line.

An escape can name half of a surrogate pair. That is no character, and stands as nothing among the
characters that are read.
-/

namespace PerfLedger.Yaml

/-- The escapes of a single character. -/
def escapes : List (Char × Char) :=
  [('0', '\x00'), ('a', '\x07'), ('b', '\x08'), ('t', '\t'), ('\t', '\t'), ('n', '\n'),
    ('v', '\x0b'), ('f', '\x0c'), ('r', '\r'), ('e', '\x1b'), (' ', ' '), ('"', '"'),
    ('\\', '\\'), ('/', '/'), ('N', '\u0085'), ('_', '\u00a0'), ('L', '\u2028'), ('P', '\u2029')]

/-- How many hexadecimal digits an escape by number has. -/
def escapeWidth? (c : Char) : Option Nat :=
  if c = 'x' then some 2
  else if c = 'u' then some 4
  else if c = 'U' then some 8
  else none

/-- The number of some hexadecimal digits. -/
def hexNumber? (n : Nat) : List Char → Option Nat
  | [] => some n
  | c :: cs =>
    match Json.hexValue? c with
    | some d => hexNumber? (n * 16 + d) cs
    | none => none

/-- The character with a number, if it is one. -/
def ofCodePoint (n : Nat) : Except Fault (Option Char) :=
  if 0x7FFFFFFF < n then .error .codePointSize
  else if 0x10FFFF < n then .error .codePoint
  else if 0xD800 ≤ n ∧ n ≤ 0xDFFF then .ok none
  else .ok (some (Char.ofNat n))

/-- The line ends of blank lines, and the cursor behind the blanks of the line after them. -/
def quotedBreaks (c : Cursor) : Except Fault (List Char × Cursor) :=
  if c.seesDocumentMark then .error .token
  else
    match _h : (c.skipWhile isBlank).breakAt? with
    | none => .ok ([], c.skipWhile isBlank)
    | some (b, d) =>
      match quotedBreaks d with
      | .error f => .error f
      | .ok (bs, e) => .ok (b :: bs, e)
termination_by c.rest.length
decreasing_by
  have := Cursor.length_breakAt? _h
  have := c.length_skipWhile isBlank
  omega

theorem length_quotedBreaks {c d : Cursor} {bs : List Char} (h : quotedBreaks c = .ok (bs, d)) :
    d.rest.length ≤ c.rest.length := by
  have hs := c.length_skipWhile isBlank
  rw [quotedBreaks] at h
  split at h
  · simp at h
  · split at h
    · simp at h
      obtain ⟨_, rfl⟩ := h
      exact hs
    · next hb =>
      have hl := Cursor.length_breakAt? hb
      split at h
      · simp at h
      · next hq =>
        have := length_quotedBreaks hq
        simp at h
        obtain ⟨_, rfl⟩ := h
        omega
termination_by c.rest.length

/-- What blanks and line ends at the cursor are folded to, and the cursor behind them. -/
def quotedGap (c : Cursor) : Except Fault (List Char × Cursor) :=
  let d := c.skipWhile isBlank
  match d.breakAt? with
  | some (b, e) =>
    match quotedBreaks e with
    | .error f => .error f
    | .ok (bs, e) => .ok (foldBreaks b bs, e)
  | none => if d.rest = [] then .error .token else .ok (c.rest.takeWhile isBlank, d)

theorem length_quotedGap {c d : Cursor} {text : List Char}
    (hc : c.sees (fun ch => isBlank ch || isBreak ch)) (h : quotedGap c = .ok (text, d)) :
    d.rest.length < c.rest.length := by
  have hs := c.length_skipWhile isBlank
  unfold quotedGap at h
  simp only at h
  split at h
  · next hb =>
    have hl := Cursor.length_breakAt? hb
    split at h
    · simp at h
    · next hq =>
      have := length_quotedBreaks hq
      simp at h
      obtain ⟨_, rfl⟩ := h
      omega
  · next hb =>
    split at h
    · simp at h
    · simp at h
      obtain ⟨_, rfl⟩ := h
      unfold Cursor.sees Cursor.peek? at hc
      cases hr : c.rest with
      | nil => simp [hr] at hc
      | cons ch more =>
        simp [hr] at hc
        by_cases hblank : isBlank ch
        · simp only [Cursor.skipWhile, Cursor.rest_advance, hr, List.takeWhile_cons, hblank,
            ↓reduceIte, List.length_cons, List.length_drop]
          omega
        · simp [Cursor.skipWhile, Cursor.breakAt?, hr, hblank, Cursor.advance] at hb
          simp_all

/-- The character of an escape with some hexadecimal digits, and the cursor behind it. -/
def scanNumbered (n : Nat) (c : Cursor) : Except Fault (List (Option Char) × Cursor) :=
  if c.rest.length < n then .error .token
  else
    match hexNumber? 0 (c.rest.take n) with
    | none => .error .token
    | some k =>
      match ofCodePoint k with
      | .error f => .error f
      | .ok x => .ok ([x], c.advance n)

theorem length_scanNumbered {n : Nat} {c d : Cursor} {xs : List (Option Char)}
    (h : scanNumbered n c = .ok (xs, d)) : d.rest.length ≤ c.rest.length := by
  unfold scanNumbered at h
  repeat' split at h
  all_goals simp at h
  obtain ⟨_, rfl⟩ := h
  simp

/-- An escaped line end, which leaves only the line ends after it, and the cursor behind those. -/
def scanEscapedBreak (c : Cursor) : Except Fault (List (Option Char) × Cursor) :=
  match quotedBreaks c with
  | .error f => .error f
  | .ok (bs, d) => .ok (bs.map some, d)

theorem length_scanEscapedBreak {c d : Cursor} {xs : List (Option Char)}
    (h : scanEscapedBreak c = .ok (xs, d)) : d.rest.length ≤ c.rest.length := by
  unfold scanEscapedBreak at h
  split at h
  · simp at h
  · next hq =>
    have := length_quotedBreaks hq
    simp at h
    obtain ⟨_, rfl⟩ := h
    exact this

/-- What an escape gives, where the cursor is behind the backslash, and the cursor behind it. -/
def scanEscape (c : Cursor) : Except Fault (List (Option Char) × Cursor) :=
  match c.rest with
  | [] => .error .token
  | ch :: _ =>
    match escapes.lookup ch, escapeWidth? ch with
    | some x, _ => .ok ([some x], c.advance 1)
    | none, some n => scanNumbered n (c.advance 1)
    | none, none => if isBreak ch then scanEscapedBreak (c.advance 1) else .error .token

theorem length_scanEscape {c d : Cursor} {xs : List (Option Char)}
    (h : scanEscape c = .ok (xs, d)) : d.rest.length ≤ c.rest.length := by
  have hc : (c.advance 1).rest.length ≤ c.rest.length := by simp
  unfold scanEscape at h
  split at h
  · simp at h
  · split at h
    · simp at h
      obtain ⟨_, rfl⟩ := h
      exact hc
    · exact Nat.le_trans (length_scanNumbered h) hc
    · split at h
      · exact Nat.le_trans (length_scanEscapedBreak h) hc
      · simp at h

/-- More characters in front of those that are read. -/
def prepend (xs : List (Option Char)) :
    Except Fault (List (Option Char) × Cursor) → Except Fault (List (Option Char) × Cursor)
  | .ok (ys, c) => .ok (xs ++ ys, c)
  | .error f => .error f

/-- The characters up to the closing quote, and the cursor behind it. -/
def quotedFrom (double : Bool) (c : Cursor) : Except Fault (List (Option Char) × Cursor) :=
  match _h : c.rest with
  | [] => .error .token
  | ch :: more =>
    if _hb : isBlank ch || isBreak ch then
      match _hg : quotedGap c with
      | .error f => .error f
      | .ok (text, d) => prepend (text.map some) (quotedFrom double d)
    else if double then
      if ch = '"' then .ok ([], c.advance 1)
      else if ch = '\\' then
        match _he : scanEscape (c.advance 1) with
        | .error f => .error f
        | .ok (xs, d) => prepend xs (quotedFrom double d)
      else prepend [some ch] (quotedFrom double (c.advance 1))
    else if ch = '\'' then
      if more.head? = some '\'' then prepend [some ch] (quotedFrom double (c.advance 2))
      else .ok ([], c.advance 1)
    else prepend [some ch] (quotedFrom double (c.advance 1))
termination_by c.rest.length
decreasing_by
  · exact length_quotedGap (by simpa [Cursor.sees, Cursor.peek?, _h] using _hb) _hg
  · have := length_scanEscape _he
    simp [_h] at this ⊢
    omega
  all_goals
    simp only [Cursor.rest_advance, List.length_drop, _h, List.length_cons]
    omega

/-- The text of characters, unless half a surrogate pair is among them. -/
def joinAll? (xs : List (Option Char)) : Option (List Char) :=
  xs.mapM id

/-- The quoted scalar at the cursor. -/
def scanQuoted (double : Bool) (c : Cursor) :
    Except Fault (Option (List Char) × Cursor) := do
  let (xs, d) ← quotedFrom double (c.advance 1)
  return (joinAll? xs, d)

end PerfLedger.Yaml
