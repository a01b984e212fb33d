import PerfLedger.Json.Text
import PerfLedger.Value.Basic

/-!
# Reading JSON

The whole text is one value with blanks around it. Besides the numbers of the standard there are
`NaN`, `Infinity` and `-Infinity`. Lists and objects that hold something may be nested two hundred
deep. The entries of an object are kept in their order, repeated keys included.
-/

namespace PerfLedger.Json

/-- The blanks between the parts of a text. -/
def isBlank (c : Char) : Bool :=
  c == ' ' || c == '\t' || c == '\n' || c == '\r'

/-- The text without the blanks in front of it. -/
def skip (cs : List Char) : List Char :=
  cs.dropWhile isBlank

/-- The rest of a word, and what it stands for. -/
def readWord (v : Value) : List Char → List Char → Except Fault (Value × List Char)
  | [], cs => .ok (v, cs)
  | _ :: _, [] => .error ⟨.endInValue, []⟩
  | e :: es, c :: cs => if e = c then readWord v es cs else .error ⟨.expectedWord, c :: cs⟩

/-! ## Numbers -/

/-- At least one digit, and all that follow. -/
def readDigits (cs : List Char) : Except Fault (List Char) :=
  match cs with
  | [] => .error ⟨.endInValue, []⟩
  | c :: rest =>
    if c.isDigit then .ok (rest.dropWhile Char.isDigit) else .error ⟨.invalidNumber, c :: rest⟩

/-- The exponent, from behind its letter. -/
def readExponent (cs : List Char) : Except Fault (List Char) :=
  match cs with
  | '-' :: rest => readDigits rest
  | '+' :: rest => readDigits rest
  | rest => readDigits rest

/-- What may follow the digits in front of the point: the text behind the number, and whether
anything followed. -/
def readFraction (cs : List Char) : Except Fault (List Char × Bool) :=
  match cs with
  | '.' :: rest => do
    match ← readDigits rest with
    | c :: more =>
      if c = 'e' ∨ c = 'E' then return (← readExponent more, true) else return (c :: more, true)
    | [] => return ([], true)
  | c :: rest =>
    if c = 'e' ∨ c = 'E' then (readExponent rest).map (·, true) else .ok (c :: rest, false)
  | [] => return ([], false)

/-- The most characters that a number may have in front of its point. -/
def wholeLimit : Nat := 4300

/-- The number at the front of a text, where `digits` is the text behind the sign. -/
def readNumber (negative : Bool) (cs digits : List Char) : Except Fault (Value × List Char) :=
  let finish (more : List Char) : Except Fault (Value × List Char) := do
    let (rest, isFraction) ← readFraction more
    let written := cs.take (cs.length - rest.length)
    if isFraction then return (.float ((Binary64.parse? (String.ofList written)).getD .nan), rest)
    else
      let n : Int := Text.digitsValue (digits.take (digits.length - rest.length))
      return (.int (if negative then -n else n), rest)
  match digits with
  | [] => .error ⟨.endInValue, []⟩
  | '0' :: rest =>
    match rest with
    | d :: _ => if d.isDigit then .error ⟨.invalidNumber, rest⟩ else finish rest
    | [] => finish rest
  | 'I' :: rest => readWord (.float (.infinite negative)) "nfinity".toList rest
  | d :: rest =>
    if d.isDigit then
      let more := rest.dropWhile Char.isDigit
      if wholeLimit < cs.length - more.length then
        .error ⟨.numberTooLong, cs.drop (wholeLimit + 1)⟩
      else finish more
    else .error ⟨.invalidNumber, digits⟩

/-! ## Values -/

/-- How deep lists and objects may be nested. -/
def depthLimit : Nat := 200

/-- A key and the colon behind it, from behind the first quote. -/
def readKey (cs : List Char) : Except Fault (List Char × List Char) := do
  let (key, rest) ← readString cs
  match skip rest with
  | [] => .error ⟨.endInObject, []⟩
  | ':' :: rest => .ok (key, rest)
  | rest => .error ⟨.expectedColon, rest⟩

mutual

/-- The value at the front of a text, inside `depth` lists and objects. Each call reads at least one
character, so the length of the text is enough of `fuel`. -/
def readValue (fuel depth : Nat) (cs : List Char) : Except Fault (Value × List Char) :=
  match fuel with
  | 0 => .error ⟨.expectedValue, cs⟩
  | fuel + 1 =>
    match cs with
    | [] => .error ⟨.endInValue, []⟩
    | c :: rest =>
      match c with
      | 't' => readWord (.bool true) "rue".toList rest
      | 'f' => readWord (.bool false) "alse".toList rest
      | 'n' => readWord .null "ull".toList rest
      | 'N' => readWord (.float .nan) "aN".toList rest
      | '"' => do
        let (s, rest) ← readString rest
        return (.text (String.ofList s), rest)
      | '[' =>
        match skip rest with
        | [] => .error ⟨.endInList, []⟩
        | ']' :: rest => .ok (.list [], rest)
        | rest =>
          if depthLimit ≤ depth then .error ⟨.tooDeep, rest⟩
          else do
            let (xs, rest) ← readItems fuel (depth + 1) rest
            return (.list xs, rest)
      | '\x7b' =>
        match skip rest with
        | [] => .error ⟨.endInObject, []⟩
        | '\x7d' :: rest => .ok (.dict [], rest)
        | '"' :: rest => do
          let (es, rest) ← readEntries fuel depth rest
          return (.dict es, rest)
        | rest => .error ⟨.keyNotText, rest⟩
      | '-' => readNumber true cs rest
      | _ =>
        if c.isDigit || c == 'I' then readNumber false cs cs else .error ⟨.expectedValue, cs⟩

/-- The members of a list, the first of which is at the front of the text. -/
def readItems (fuel depth : Nat) (cs : List Char) : Except Fault (List Value × List Char) :=
  match fuel with
  | 0 => .error ⟨.expectedValue, cs⟩
  | fuel + 1 => do
    let (x, rest) ← readValue fuel depth cs
    match skip rest with
    | [] => .error ⟨.endInList, []⟩
    | ']' :: rest => return ([x], rest)
    | ',' :: rest =>
      match skip rest with
      | [] => .error ⟨.endInValue, []⟩
      | ']' :: rest => .error ⟨.trailingComma, ']' :: rest⟩
      | rest => do
        let (xs, rest) ← readItems fuel depth rest
        return (x :: xs, rest)
    | rest => .error ⟨.expectedListEnd, rest⟩

/-- The entries of an object, from behind the first quote of the first key. -/
def readEntries (fuel depth : Nat) (cs : List Char) :
    Except Fault (List (Value × Value) × List Char) :=
  match fuel with
  | 0 => .error ⟨.expectedValue, cs⟩
  | fuel + 1 => do
    let (key, rest) ← readKey cs
    match skip rest with
    | [] => .error ⟨.endInValue, []⟩
    | rest =>
      if depthLimit ≤ depth then .error ⟨.tooDeep, rest⟩
      else do
        let (x, rest) ← readValue fuel (depth + 1) rest
        let entry := (Value.text (String.ofList key), x)
        match skip rest with
        | [] => .error ⟨.endInObject, []⟩
        | '\x7d' :: rest => return ([entry], rest)
        | ',' :: rest =>
          match skip rest with
          | [] => .error ⟨.endInValue, []⟩
          | '"' :: rest => do
            let (es, rest) ← readEntries fuel depth rest
            return (entry :: es, rest)
          | '\x7d' :: rest => .error ⟨.trailingComma, '\x7d' :: rest⟩
          | rest => .error ⟨.keyNotText, rest⟩
        | rest => .error ⟨.expectedObjectEnd, rest⟩

end

/-- The value that a text denotes. -/
def parse (s : String) : Except Fault Value := do
  let cs := skip s.toList
  let (v, rest) ← readValue (cs.length + 1) 0 cs
  match skip rest with
  | [] => return v
  | rest => .error ⟨.trailingCharacters, rest⟩

end PerfLedger.Json
