import PerfLedger.Yaml.Cursor

/-!
# Plain scalars

A plain scalar is a row of runs without blanks, with *gaps* between them: spaces, or line ends,
which are folded. It ends before a comment, before an indicator, and before a line that is not
indented enough. Each run starts with a character, so the rest of the text gets shorter.
-/

namespace PerfLedger.Yaml

/-- An indicator inside flow collections. -/
def isFlowIndicator (c : Char) : Bool :=
  c == ',' || c == '[' || c == ']' || c == '\x7b' || c == '\x7d'

/-- Whether a run of a plain scalar ends at a character, given the next one. -/
def endsRun (flow : Bool) (c : Char) (next : Option Char) : Bool :=
  isBlank c || isBreak c ||
    (c == ':' && (Cursor.endsWord next || (flow && next.any isFlowIndicator))) ||
    (flow && (c == '?' || isFlowIndicator c))

/-- The characters up to the end of the run. -/
def plainRun (flow : Bool) : List Char → List Char
  | [] => []
  | c :: cs => if endsRun flow c cs.head? then [] else c :: plainRun flow cs

/-- What a line end and the line ends after it are folded to. -/
def foldBreaks (first : Char) (breaks : List Char) : List Char :=
  if first ≠ '\n' then first :: breaks
  else if breaks = [] then [' ']
  else breaks

/-- Line ends, the cursor behind them and the spaces after them, and whether a mark between
documents was found there instead. -/
structure Breaks where
  text : List Char
  after : Cursor
  stops : Bool

/-- One more line end in front of others. -/
def Breaks.cons (c : Char) (b : Breaks) : Breaks :=
  { b with text := c :: b.text }

/-- The line ends of the lines that hold only spaces. -/
def plainBreaks (c : Cursor) : Breaks :=
  match _h : c.rest with
  | [] => ⟨[], c, false⟩
  | ch :: _ =>
    if ch = ' ' then plainBreaks (c.advance 1)
    else if isBreak ch then
      if (c.advance 1).seesDocumentMark then ⟨[], c.advance 1, true⟩
      else (plainBreaks (c.advance 1)).cons (breakChar ch)
    else ⟨[], c, false⟩
termination_by c.rest.length
decreasing_by all_goals simp [_h]

theorem length_plainBreaks (c : Cursor) :
    (plainBreaks c).after.rest.length ≤ c.rest.length := by
  rw [plainBreaks]
  split
  · simp
  · next h =>
    have hc : (c.advance 1).rest.length < c.rest.length := by simp [h]
    have := length_plainBreaks (c.advance 1)
    split
    · omega
    · split
      · split
        · exact Nat.le_of_lt hc
        · simp only [Breaks.cons]; omega
      · simp
termination_by c.rest.length

/-- What stands between two runs: the text it is folded to, which is empty if the scalar ends, the
cursor behind it, and whether a line end was crossed. -/
structure Gap where
  text : List Char
  after : Cursor
  crossed : Bool

/-- The gap that begins with a line end. -/
def lineGap (first : Char) (b : Breaks) : Gap :=
  ⟨if b.stops then [] else foldBreaks first b.text, b.after, true⟩

/-- The gap at the cursor. -/
def plainGap (c : Cursor) : Gap :=
  match c.skipSpaces.breakAt? with
  | none => ⟨c.rest.takeWhile (· == ' '), c.skipSpaces, false⟩
  | some (b, d) => if d.seesDocumentMark then ⟨[], d, true⟩ else lineGap b (plainBreaks d)

theorem length_plainGap (c : Cursor) : (plainGap c).after.rest.length ≤ c.rest.length := by
  have hs : c.skipSpaces.rest.length ≤ c.rest.length := c.length_skipWhile _
  unfold plainGap
  split
  · exact hs
  · next d hb =>
    have hl := Cursor.length_breakAt? hb
    have hd := length_plainBreaks d
    split
    · simp only; omega
    · simp only [lineGap]; omega

/-- The text of a plain scalar, the cursor behind it, and whether the last gap crossed a line
end. -/
structure PlainScalar where
  text : List Char
  after : Cursor
  crossed : Bool

/-- More text in front of a scalar. -/
def PlainScalar.prepend (cs : List Char) (p : PlainScalar) : PlainScalar :=
  { p with text := cs ++ p.text }

/-- The plain scalar from a run on, with the pending gap in front of it. -/
def plainFrom (flow : Bool) (indent : Int) (pending : List Char) (crossed : Bool) (c : Cursor) :
    PlainScalar :=
  if _h : c.sees (· == '#') ∨ plainRun flow c.rest = [] then ⟨[], c, crossed⟩
  else
    let run := plainRun flow c.rest
    let gap := plainGap (c.advance run.length)
    if gap.text = [] ∨ gap.after.sees (· == '#') ∨ (!flow ∧ (gap.after.column : Int) < indent) then
      ⟨pending ++ run, gap.after, gap.crossed⟩
    else (plainFrom flow indent gap.text gap.crossed gap.after).prepend (pending ++ run)
termination_by c.rest.length
decreasing_by
  have hg := length_plainGap (c.advance (plainRun flow c.rest).length)
  have hr : (plainRun flow c.rest).length ≠ 0 := by
    intro h0
    exact _h (Or.inr (List.eq_nil_of_length_eq_zero h0))
  have hc : c.rest.length ≠ 0 := by
    intro h0
    rw [List.eq_nil_of_length_eq_zero h0] at hr
    exact hr rfl
  rw [Cursor.rest_advance, List.length_drop] at hg
  show (plainGap (c.advance (plainRun flow c.rest).length)).after.rest.length < c.rest.length
  omega

/-- The plain scalar at the cursor. -/
def scanPlain (flow : Bool) (indent : Int) (c : Cursor) : PlainScalar :=
  plainFrom flow indent [] false c

end PerfLedger.Yaml
