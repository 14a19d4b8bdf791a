import SchemaCatalog.Yaml.Scalar
import SchemaCatalog.Yaml.Token

namespace SchemaCatalog.Yaml

/-- A place at which a key may have started. -/
structure KeyStart where
  index : Nat
  offset : Nat
  line : Nat
  column : Nat
  /-- Whether what starts there can only be a key. -/
  required : Bool

/-- The tokens so far, and what decides about the next one. -/
structure Layout where
  cursor : Cursor
  tokens : Array Token := #[]
  /-- The columns of the open block collections, innermost first. -/
  columns : List Nat := []
  keyAllowed : Bool := true
  /-- Where a key may have started, in the innermost flow collection or outside of all. -/
  keyStart : Option KeyStart := none
  /-- The same for what encloses each open flow collection, innermost first. -/
  outerStarts : List (Option KeyStart) := []

namespace Layout

def inFlow (l : Layout) : Bool := !l.outerStarts.isEmpty

def indent (l : Layout) : Nat :=
  match l.columns with
  | [] => 0
  | column :: _ => column + 1

def push (l : Layout) (token : Token) : Layout := { l with tokens := l.tokens.push token }

def insert (l : Layout) (index : Nat) (token : Token) : Layout :=
  { l with tokens := (l.tokens.extract 0 index).push token ++ l.tokens.extract index l.tokens.size }

def openBlock (l : Layout) (column index : Nat) (token : Token) : Layout :=
  if !l.inFlow && l.indent ≤ column then
    { l.insert index token with columns := column :: l.columns }
  else l

/-- Closes the block collections to the right of a column. -/
def closeBlocks (l : Layout) (column : Nat) : List Nat → Layout
  | [] => { l with columns := [] }
  | inner :: outer =>
    if column < inner then closeBlocks (l.push .blockEnd) column outer
    else { l with columns := inner :: outer }

def dedent (l : Layout) : Layout :=
  if l.inFlow then l else l.closeBlocks l.cursor.column l.columns

def closeAll (l : Layout) : Layout :=
  if l.inFlow then l
  else
    let tokens := l.columns.foldl (fun tokens _ => tokens.push .blockEnd) l.tokens
    { l with tokens := tokens, columns := [] }

def dropKey (l : Layout) : Except Fault Layout :=
  if l.keyStart.any KeyStart.required then .error .expectedColon
  else .ok { l with keyStart := none }

/-- Remembers that a key may start with the next token. -/
def noteKey (l : Layout) : Except Fault Layout := do
  if !l.keyAllowed then return l
  let l ← l.dropKey
  let cur := l.cursor
  return { l with keyStart := some {
    index := l.tokens.size
    offset := cur.offset
    line := cur.line
    column := cur.column
    required := !l.inFlow && l.columns.head? == some cur.column } }

/-- Where the key before a `:` starts. A key stands on one line and has at most 1024 characters. -/
def currentKey? (l : Layout) : Except Fault (Option KeyStart) :=
  match l.keyStart with
  | none => .ok none
  | some start =>
    if start.line < l.cursor.line || start.offset + 1024 < l.cursor.offset then
      if start.required then .error .expectedColon else .ok none
    else .ok (some start)

def take (l : Layout) (token : Token) (length : Nat) : Layout :=
  { l.push token with cursor := l.cursor.advance length }

def pushAt (l : Layout) (token : Token) (cur : Cursor) : Layout :=
  { l.push token with cursor := cur }

/-- Skips blanks, comments and line breaks, and a byte order mark at the start of a line, which
takes a column. A tab does not count as a blank where it could be taken for indentation. -/
def skipSpace : Nat → Layout → Layout
  | 0, l => l
  | fuel + 1, l =>
    let tabs := l.inFlow || !l.keyAllowed
    let cur := l.cursor.skipByteOrderMark
    let cur := (cur.skipWhile fun c => c == ' ' || (tabs && c == '\t')).skipComment
    if startsWith isBreak cur.rest then
      skipSpace fuel { l with cursor := cur.skipBreak, keyAllowed := l.keyAllowed || !l.inFlow }
    else { l with cursor := cur }

def openFlow (l : Layout) (token : Token) : Except Fault Layout := do
  let l ← l.noteKey
  return { l.take token 1 with
    keyAllowed := true, keyStart := none, outerStarts := l.keyStart :: l.outerStarts }

def closeFlow (l : Layout) (token : Token) : Except Fault Layout := do
  let l ← l.dropKey
  let l := { l.take token 1 with keyAllowed := false }
  match l.outerStarts with
  | [] => return l
  | start :: outer => return { l with keyStart := start, outerStarts := outer }

def flowEntry (l : Layout) : Except Fault Layout := do
  return { (← l.dropKey).take .flowEntry 1 with keyAllowed := true }

def blockEntry (l : Layout) : Except Fault Layout := do
  if !l.inFlow && !l.keyAllowed then throw .misplacedEntry
  let l := l.openBlock l.cursor.column l.tokens.size .blockSequenceStart
  return { (← l.dropKey).take .blockEntry 1 with keyAllowed := true }

def explicitKey (l : Layout) : Except Fault Layout := do
  if !l.inFlow && !l.keyAllowed then throw .misplacedKey
  let l := l.openBlock l.cursor.column l.tokens.size .blockMappingStart
  return { (← l.dropKey).take .key 1 with keyAllowed := !l.inFlow }

/-- The `:` before a value. The token for the key goes to where the key started. -/
def mappingValue (l : Layout) : Except Fault Layout := do
  match ← l.currentKey? with
  | some start =>
    let l := (l.insert start.index .key).openBlock start.column start.index .blockMappingStart
    return { l.take .value 1 with keyStart := none, keyAllowed := false }
  | none =>
    if !l.inFlow && !l.keyAllowed then throw .misplacedValue
    let l := l.openBlock l.cursor.column l.tokens.size .blockMappingStart
    return { l.take .value 1 with keyAllowed := !l.inFlow }

def anchor (l : Layout) (token : String → Token) : Except Fault Layout := do
  let l ← l.noteKey
  let (name, cur) ← readAnchor l.cursor
  return { l.pushAt (token name) cur with keyAllowed := false }

def tag (l : Layout) : Except Fault Layout := do
  let l ← l.noteKey
  let (token, cur) ← readTag l.inFlow l.cursor
  return { l.pushAt token cur with keyAllowed := false }

def blockScalar (l : Layout) (literal : Bool) : Except Fault Layout := do
  let l ← l.dropKey
  let (text, cur) ← readBlock literal l.columns.head? l.cursor
  return { l.pushAt (.scalar text false) cur with keyAllowed := true }

def quotedScalar (l : Layout) (double : Bool) : Except Fault Layout := do
  let l ← l.noteKey
  let (text, cur) ← readQuoted double l.cursor
  return { l.pushAt (.scalar text false) cur with keyAllowed := false }

/-- A plain scalar. After it a key may start if its last line has ended. -/
def plainScalar (l : Layout) : Except Fault Layout := do
  let l ← l.noteKey
  let (text, lineEnded, cur) ← readPlain l.inFlow l.indent l.cursor
  return { l.pushAt (.scalar text true) cur with keyAllowed := lineEnded }

def directive (l : Layout) : Except Fault Layout := do
  let l ← l.closeAll.dropKey
  let (token, cur) ← readDirective l.cursor
  return { l.pushAt token cur with keyAllowed := false }

def documentMark (l : Layout) (token : Token) : Except Fault Layout := do
  let l ← l.closeAll.dropKey
  return { l.take token 3 with keyAllowed := false }

def startsPlain (c : Char) : Bool :=
  !(isBlank c || isBreak c ||
    ['-', '?', ':', ',', '[', ']', '{', '}', '#', '&', '*', '!', '|', '>', '\'', '"', '%', '@',
      '`'].contains c)

/-- Adds the next token of a text that starts with the given character. -/
def next (l : Layout) (c : Char) (rest : List Char) : Except Fault Layout :=
  if l.cursor.column == 0 && c == '%' then l.directive
  else if l.cursor.atDocumentMark then
    l.documentMark (if c == '-' then .documentStart else .documentEnd)
  else if c == '[' then l.openFlow .flowSequenceStart
  else if c == '{' then l.openFlow .flowMappingStart
  else if c == ']' then l.closeFlow .flowSequenceEnd
  else if c == '}' then l.closeFlow .flowMappingEnd
  else if c == ',' then l.flowEntry
  else if c == '-' && endsWord rest then l.blockEntry
  else if c == '?' && (l.inFlow || endsWord rest) then l.explicitKey
  else if c == ':' && (l.inFlow || endsWord rest) then l.mappingValue
  else if c == '*' then l.anchor .alias
  else if c == '&' then l.anchor .anchor
  else if c == '!' then l.tag
  else if c == '|' && !l.inFlow then l.blockScalar true
  else if c == '>' && !l.inFlow then l.blockScalar false
  else if c == '\'' then l.quotedScalar false
  else if c == '"' then l.quotedScalar true
  else if startsPlain c || (c == '-' && !startsWith isBlank rest) ||
      (!l.inFlow && (c == '?' || c == ':')) then l.plainScalar
  else .error .unexpectedCharacter

/-- Adds all tokens that are left. Each takes at least one character. -/
def run : Nat → Layout → Except Fault Layout
  | 0, l => .ok l
  | fuel + 1, l => do
    let l := (l.skipSpace (l.cursor.rest.length + 1)).dedent
    match l.cursor.rest with
    | [] => l.closeAll.dropKey
    | c :: rest => run fuel (← l.next c rest)

end Layout

def tokens (text : List Char) : Except Fault (List Token) := do
  if text.any (fun c => !isAllowed c) then throw .forbiddenCharacter
  return (← Layout.run (text.length + 1) { cursor := ⟨text, 0, 0, 0⟩ }).tokens.toList

end SchemaCatalog.Yaml
