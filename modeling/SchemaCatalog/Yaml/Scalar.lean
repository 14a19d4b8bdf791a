import SchemaCatalog.Json.Event
import SchemaCatalog.Yaml.Cursor

namespace SchemaCatalog.Yaml

/-- What stands between two words of a scalar: blanks, or line breaks with blanks around them. -/
inductive Gap where
  | blanks (text : List Char)
  /-- The first break and what follows it. An escaped break leaves no text. -/
  | breaks (first more : List Char)
deriving Repr

namespace Gap

def empty : Gap := .blanks []

/-- The text that a gap stands for. -/
def text : Gap → List Char
  | .blanks text => text
  | .breaks ['\n'] [] => [' ']
  | .breaks ['\n'] more => more
  | .breaks first more => first ++ more

def spansLines : Gap → Bool
  | .blanks _ => false
  | .breaks _ _ => true

def addBlank (c : Char) : Gap → Gap
  | .blanks text => .blanks (text ++ [c])
  | gap => gap

def addBreak (text : List Char) : Gap → Gap
  | .blanks _ => .breaks text []
  | .breaks first more => .breaks first (more ++ text)

end Gap

/-- Reads the blanks and breaks up to the next word. On a line that continues a scalar, no tab may
stand before the column `indent`. -/
def readGap (indent : Nat) : Nat → Cursor → Gap → Except Fault (Gap × Cursor)
  | 0, cur, gap => .ok (gap, cur)
  | fuel + 1, cur, gap =>
    match cur.rest with
    | [] => .ok (gap, cur)
    | c :: _ =>
      if isBlank c then
        if gap.spansLines && cur.column < indent && c == '\t' then .error .tabIndentation
        else readGap indent fuel (cur.advance 1) (gap.addBlank c)
      else if isBreak c then readGap indent fuel cur.skipBreak (gap.addBreak cur.breakText)
      else .ok (gap, cur)

def isFlowIndicator (c : Char) : Bool := c == ',' || c == '[' || c == ']' || c == '{' || c == '}'

def endsPlain (inFlow : Bool) (text : List Char) : Bool :=
  endsWord text || (inFlow && startsWith isFlowIndicator text) ||
    match text with
    | ':' :: rest => endsWord rest
    | _ => false

def isStrayColon : List Char → Bool
  | ':' :: c :: _ => isFlowIndicator c || c == '?'
  | _ => false

/-- The word of a plain scalar that a text starts with. -/
def plainWord (inFlow : Bool) : List Char → Except Fault (List Char)
  | [] => .ok []
  | c :: rest =>
    if inFlow && isStrayColon (c :: rest) then .error .colonInFlow
    else if endsPlain inFlow (c :: rest) then .ok []
    else (plainWord inFlow rest).map (c :: ·)

/-- Reads the words of a plain scalar that goes on at columns from `indent`, after text and a gap.
The gap after the last word is given as well. -/
def readPlainFrom (inFlow : Bool) (indent : Nat) :
    Nat → Cursor → List Char → Gap → Except Fault (List Char × Gap × Cursor)
  | 0, cur, done, gap => .ok (done, gap, cur)
  | fuel + 1, cur, done, gap => do
    if cur.atDocumentMark || startsWith (· == '#') cur.rest then return (done, gap, cur)
    let word ← plainWord inFlow cur.rest
    let done := if word.isEmpty then done else done ++ gap.text ++ word
    let gap := if word.isEmpty then gap else .empty
    let cur := cur.advance word.length
    if startsWith (fun c => isBlank c || isBreak c) cur.rest then
      let (gap, cur) ← readGap indent cur.rest.length cur gap
      if !inFlow && cur.column < indent then return (done, gap, cur)
      readPlainFrom inFlow indent fuel cur done gap
    else return (done, gap, cur)

def readPlain (inFlow : Bool) (indent : Nat) (cur : Cursor) :
    Except Fault (String × Bool × Cursor) := do
  let (text, gap, cur) ← readPlainFrom inFlow indent cur.rest.length cur [] .empty
  return (String.ofList text, gap.spansLines, cur)

/-- The character that a one-letter escape stands for. -/
def simpleEscape? : Char → Option Char
  | '0' => some '\x00'
  | 'a' => some '\x07'
  | 'b' => some '\x08'
  | 't' => some '\t'
  | '\t' => some '\t'
  | 'n' => some '\n'
  | 'v' => some '\x0b'
  | 'f' => some '\x0c'
  | 'r' => some '\r'
  | 'e' => some '\x1b'
  | ' ' => some ' '
  | '"' => some '"'
  | '/' => some '/'
  | '\\' => some '\\'
  | 'N' => some '\u0085'
  | '_' => some '\u00a0'
  | 'L' => some '\u2028'
  | 'P' => some '\u2029'
  | _ => none

/-- The number of digits of an escape that gives a code point. -/
def escapeLength? : Char → Option Nat
  | 'x' => some 2
  | 'u' => some 4
  | 'U' => some 8
  | _ => none

/-- The character of a code point given in hexadecimal digits. -/
def escapedCharacter (digits : List Char) : Except Fault Char :=
  match digits.mapM Json.hexDigit? with
  | none => .error .badEscape
  | some values =>
    let code := values.foldl (fun code value => 16 * code + value) 0
    if h : code.isValidChar then .ok ⟨code.toUInt32, by
      have hlt : code < 4294967296 := by
        rcases h with h | ⟨_, h⟩ <;> omega
      simpa [UInt32.isValidChar, Nat.toUInt32, UInt32.toNat_ofNat_of_lt' hlt] using h⟩
    else .error .badEscape

/-- The escape after a backslash: the character, and the number of characters that spell it. -/
def readEscape : List Char → Except Fault (Char × Nat)
  | [] => .error .badEscape
  | c :: rest =>
    match simpleEscape? c, escapeLength? c with
    | some meant, _ => .ok (meant, 1)
    | none, some length =>
      if rest.length < length then .error .badEscape
      else do return (← escapedCharacter (rest.take length), length + 1)
    | none, none => .error .badEscape

/-- How the characters of a word of a quoted scalar end. -/
inductive QuotedStop where
  | wordEnd
  | quote
  | escapedBreak

/-- Reads a word of a quoted scalar. -/
def readQuotedWord (double : Bool) :
    Nat → Cursor → List Char → Except Fault (List Char × QuotedStop × Cursor)
  | 0, cur, done => .ok (done, .wordEnd, cur)
  | fuel + 1, cur, done =>
    match cur.rest with
    | [] => .ok (done, .wordEnd, cur)
    | c :: rest =>
      if isBlank c || isBreak c then .ok (done, .wordEnd, cur)
      else if double then
        if c == '"' then .ok (done, .quote, cur)
        else if c == '\\' then
          if startsWith isBreak rest then .ok (done, .escapedBreak, (cur.advance 1).skipBreak)
          else do
            let (meant, length) ← readEscape rest
            readQuotedWord double fuel (cur.advance (length + 1)) (done ++ [meant])
        else readQuotedWord double fuel (cur.advance 1) (done ++ [c])
      else if c == '\'' then
        if startsWith (· == '\'') rest then
          readQuotedWord double fuel (cur.advance 2) (done ++ ['\''])
        else .ok (done, .quote, cur)
      else readQuotedWord double fuel (cur.advance 1) (done ++ [c])

/-- Reads the words of a quoted scalar up to its closing quote. -/
def readQuotedFrom (double : Bool) :
    Nat → Cursor → List Char → Except Fault (List Char × Cursor)
  | 0, _, _ => .error .unclosedQuote
  | fuel + 1, cur, done => do
    if cur.atDocumentMark || cur.rest.isEmpty then throw .unclosedQuote
    let (done, stop, cur) ← readQuotedWord double cur.rest.length cur done
    match stop with
    | .quote => return (done, cur.advance 1)
    | .wordEnd =>
      let (gap, cur) ← readGap 0 cur.rest.length cur .empty
      readQuotedFrom double fuel cur (done ++ gap.text)
    | .escapedBreak =>
      if startsWith (· == '"') cur.rest then return (done, cur.advance 1)
      let (gap, cur) ← readGap 0 cur.rest.length cur (.breaks [] [])
      readQuotedFrom double fuel cur (done ++ gap.text)

def readQuoted (double : Bool) (cur : Cursor) : Except Fault (String × Cursor) := do
  let cur := cur.advance 1
  let (text, cur) ← readQuotedFrom double (cur.rest.length + 1) cur []
  return (String.ofList text, cur)

/-- What becomes of the line breaks at the end of a block scalar. -/
inductive Chomping where
  | strip
  | clip
  | keep
deriving DecidableEq, Repr

def chomping? : Char → Option Chomping
  | '-' => some .strip
  | '+' => some .keep
  | _ => none

def indentation? (c : Char) : Except Fault (Option Nat) :=
  if c == '0' then .error .badBlockHeader
  else if c.isDigit then .ok (some (c.toNat - 48))
  else .ok none

/-- Reads chomping and indentation, in any order, and the number of characters that spell them. -/
def readBlockHeader (text : List Char) : Except Fault (Chomping × Option Nat × Nat) :=
  match text with
  | [] => .ok (.clip, none, 0)
  | c :: rest =>
    match chomping? c with
    | some chomping => do
      let indentation ← indentation? (rest.headD ' ')
      return (chomping, indentation, if indentation.isSome then 2 else 1)
    | none => do
      let indentation ← indentation? c
      if indentation.isNone then return (.clip, none, 0)
      match chomping? (rest.headD ' ') with
      | some chomping => return (chomping, indentation, 2)
      | none => return (.clip, indentation, 1)

/-- Reads empty lines and the indentation of the next line. Without a known indentation, the largest
column is given as well. -/
def readBlockBreaks (indent : Option Nat) :
    Nat → Cursor → List Char → Nat → Except Fault (List Char × Nat × Cursor)
  | 0, cur, breaks, widest => .ok (breaks, widest, cur)
  | fuel + 1, cur, breaks, widest =>
    let spaces := (cur.rest.takeWhile (· == ' ')).length
    let cur := cur.advance (match indent with
      | none => spaces
      | some indent => min spaces (indent - cur.column))
    let widest := max widest cur.column
    let within := match indent with
      | none => true
      | some indent => cur.column < indent
    if within && startsWith (· == '\t') cur.rest then .error .tabIndentation
    else if startsWith isBreak cur.rest then
      readBlockBreaks indent fuel cur.skipBreak (breaks ++ cur.breakText) widest
    else .ok (breaks, widest, cur)

/-- Reads the lines of a block scalar. `gap` is the break before the line with those of the empty
lines after it, and `blankBefore` tells whether the line before starts with a blank. -/
def readBlockLines (literal : Bool) (indent : Nat) :
    Nat → Cursor → List Char → List Char × List Char → Bool →
      Except Fault (List Char × (List Char × List Char) × Cursor)
  | 0, cur, done, gap, _ => .ok (done, gap, cur)
  | fuel + 1, cur, done, gap, blankBefore =>
    if cur.column == indent && !cur.rest.isEmpty then do
      let blank := startsWith isBlank cur.rest
      let (first, more) := gap
      let between :=
        if !literal && first == ['\n'] && !blankBefore && !blank then
          if more.isEmpty then [' '] else more
        else first ++ more
      let line := cur.rest.takeWhile (fun c => !isBreak c)
      let cur := cur.advance line.length
      let (more, _, next) ← readBlockBreaks (some indent) cur.rest.length cur.skipBreak [] 0
      readBlockLines literal indent fuel next (done ++ between ++ line) (cur.breakText, more) blank
    else .ok (done, gap, cur)

/-- Reads a block scalar from its indicator on, within a block at column `outer` if there is one. -/
def readBlock (literal : Bool) (outer : Option Nat) (cur : Cursor) :
    Except Fault (String × Cursor) := do
  let cur := cur.advance 1
  let (chomping, indentation, length) ← readBlockHeader cur.rest
  let cur := ((cur.advance length).skipWhile isBlank).skipComment
  if !endsLine cur.rest then throw .badBlockHeader
  let cur := if cur.rest.isEmpty then cur else cur.skipBreak
  let known := indentation.map (· + outer.getD 0)
  let (breaks, widest, cur) ← readBlockBreaks known (cur.rest.length + 1) cur [] 0
  let lowest := match outer with
    | none => 1
    | some column => column + 1
  let indent := known.getD (max widest lowest)
  let (text, (first, more), cur) ←
    readBlockLines literal indent cur.rest.length cur [] ([], breaks) false
  let ending := match chomping with
    | .strip => []
    | .clip => first
    | .keep => first ++ more
  return (String.ofList (text ++ ending), cur)

end SchemaCatalog.Yaml
