import SchemaCatalog.Json.Basic
import SchemaCatalog.Decimal.Scaled

namespace SchemaCatalog.Json

/-- What makes a text malformed. -/
inductive Fault where
  | endInList
  | endInObject
  | endInString
  | endInValue
  | expectedColon
  | expectedItemEnd
  | expectedMemberEnd
  | expectedWord
  | expectedValue
  | badEscape
  | badNumber
  | numberOutOfRange
  | controlCharacter
  | keyNotString
  | loneSurrogate
  | cutSurrogatePair
  | trailingComma
  | trailingText
  | tooDeep
deriving DecidableEq, Repr, Inhabited

def Fault.message : Fault → String
  | .endInList => "EOF while parsing a list"
  | .endInObject => "EOF while parsing an object"
  | .endInString => "EOF while parsing a string"
  | .endInValue => "EOF while parsing a value"
  | .expectedColon => "expected `:`"
  | .expectedItemEnd => "expected `,` or `]`"
  | .expectedMemberEnd => "expected `,` or `\x7d`"
  | .expectedWord => "expected ident"
  | .expectedValue => "expected value"
  | .badEscape => "invalid escape"
  | .badNumber => "invalid number"
  | .numberOutOfRange => "number out of range"
  | .controlCharacter => "control character (\\u0000-\\u001F) found while parsing a string"
  | .keyNotString => "key must be a string"
  | .loneSurrogate => "lone leading surrogate in hex escape"
  | .cutSurrogatePair => "unexpected end of hex escape"
  | .trailingComma => "trailing comma"
  | .trailingText => "trailing characters"
  | .tooDeep => "recursion limit exceeded"

/-- A fault and the byte offset it is reported at. -/
structure Failure where
  fault : Fault
  offset : Nat
deriving DecidableEq, Repr

/-- The text that is left and the number of bytes before it. -/
structure Cursor where
  rest : List Char
  offset : Nat
deriving Repr

namespace Cursor

def isBlank (c : Char) : Bool := c == ' ' || c == '\n' || c == '\t' || c == '\r'

def skipBlanks (cur : Cursor) : Cursor :=
  { rest := cur.rest.dropWhile isBlank
    offset := cur.offset + (cur.rest.takeWhile isBlank).length }

def advance (cur : Cursor) (count : Nat) : Cursor := ⟨cur.rest.drop count, cur.offset + count⟩

def here {α : Type} (cur : Cursor) (fault : Fault) : Except Failure α := .error ⟨fault, cur.offset⟩

def ahead {α : Type} (cur : Cursor) (fault : Fault) : Except Failure α :=
  .error ⟨fault, cur.offset + if cur.rest.isEmpty then 0 else 1⟩

end Cursor

def hexDigit? (c : Char) : Option Nat :=
  if '0' ≤ c && c ≤ '9' then some (c.toNat - 48)
  else if 'a' ≤ c && c ≤ 'f' then some (c.toNat - 87)
  else if 'A' ≤ c && c ≤ 'F' then some (c.toNat - 55)
  else none

def hexUnit? (a b c d : Char) : Option Nat := do
  let a ← hexDigit? a
  let b ← hexDigit? b
  let c ← hexDigit? c
  let d ← hexDigit? d
  return ((a * 16 + b) * 16 + c) * 16 + d

def hexFailure (rest : List Char) (offset : Nat) : Failure :=
  let size := (String.ofList rest).utf8ByteSize
  if 4 ≤ size then ⟨.badEscape, offset + 4⟩ else ⟨.endInString, offset + size⟩

/-- The character that a one-letter escape stands for. -/
def simpleEscape? : Char → Option Char
  | '"' => some '"'
  | '\\' => some '\\'
  | '/' => some '/'
  | 'b' => some '\x08'
  | 'f' => some '\x0c'
  | 'n' => some '\n'
  | 'r' => some '\r'
  | 't' => some '\t'
  | _ => none

def isLowSurrogate (unit : Nat) : Bool := 0xdc00 ≤ unit && unit ≤ 0xdfff

def isHighSurrogate (unit : Nat) : Bool := 0xd800 ≤ unit && unit ≤ 0xdbff

def pairedCharacter (high low : Nat) : Char :=
  Char.ofNat ((high - 0xd800) * 0x400 + (low - 0xdc00) + 0x10000)

/-- Reads a string after its opening quote. -/
def readString (rest : List Char) (offset : Nat) (done : String) :
    Except Failure (String × Cursor) :=
  match rest with
  | [] => .error ⟨.endInString, offset⟩
  | '"' :: rest => .ok (done, ⟨rest, offset + 1⟩)
  | '\\' :: 'u' :: a :: b :: c :: d :: rest =>
    match hexUnit? a b c d with
    | none => .error (hexFailure (a :: b :: c :: d :: rest) (offset + 2))
    | some unit =>
      if isLowSurrogate unit then .error ⟨.loneSurrogate, offset + 6⟩
      else if isHighSurrogate unit then
        match rest with
        | '\\' :: 'u' :: a' :: b' :: c' :: d' :: rest =>
          match hexUnit? a' b' c' d' with
          | none => .error (hexFailure (a' :: b' :: c' :: d' :: rest) (offset + 8))
          | some low =>
            if isLowSurrogate low then
              readString rest (offset + 12) (done.push (pairedCharacter unit low))
            else .error ⟨.loneSurrogate, offset + 12⟩
        | '\\' :: 'u' :: rest => .error (hexFailure rest (offset + 8))
        | '\\' :: _ :: _ => .error ⟨.cutSurrogatePair, offset + 8⟩
        | ['\\'] => .error ⟨.endInString, offset + 7⟩
        | _ :: _ => .error ⟨.cutSurrogatePair, offset + 7⟩
        | [] => .error ⟨.endInString, offset + 6⟩
      else readString rest (offset + 6) (done.push (Char.ofNat unit))
  | '\\' :: 'u' :: rest => .error (hexFailure rest (offset + 2))
  | ['\\'] => .error ⟨.endInString, offset + 1⟩
  | '\\' :: c :: rest =>
    match simpleEscape? c with
    | some c => readString rest (offset + 2) (done.push c)
    | none => .error ⟨.badEscape, offset + 2⟩
  | c :: rest =>
    if c.toNat < 32 then .error ⟨.controlCharacter, offset + 1⟩
    else readString rest (offset + c.utf8Size) (done.push c)

def maxSignificand : Nat := Nat.pow 2 64 - 1

def maxExponent : Nat := Nat.pow 2 31 - 1

def digitValue (c : Char) : Nat := c.toNat - 48

/-- Appends digits to a number while it stays at most `limit`; the digits left over come second. -/
def absorb (limit : Nat) : Nat → List Char → Nat × List Char
  | n, [] => (n, [])
  | n, d :: ds =>
    if n * 10 + digitValue d ≤ limit then absorb limit (n * 10 + digitValue d) ds else (n, d :: ds)

def signedFloat (negative : Bool) (x : Float) : Numeral :=
  .float (if negative then -x else x).toBits

/-- The float `significand · 10 ^ exponent`, refused beyond the range. -/
def decimalAt (negative : Bool) (significand : Nat) (exponent : Int) (cur : Cursor) :
    Except Failure (Numeral × Cursor) :=
  match Decimal.scaled? significand exponent with
  | some x => .ok (signedFloat negative x, cur)
  | none => cur.here .numberOutOfRange

def readExponent (negative : Bool) (significand : Nat) (start : Int) (cur : Cursor) :
    Except Failure (Numeral × Cursor) :=
  let (falling, cur) := match cur.rest with
    | '+' :: _ => (false, cur.advance 1)
    | '-' :: _ => (true, cur.advance 1)
    | _ => (false, cur)
  match cur.rest with
  | [] => cur.here .endInValue
  | c :: _ =>
    if !c.isDigit then cur.ahead .badNumber
    else
      let digits := cur.rest.takeWhile Char.isDigit
      let (power, left) := absorb maxExponent 0 digits
      if left.isEmpty then
        decimalAt negative significand (if falling then start - power else start + power)
          (cur.advance digits.length)
      else if significand != 0 && !falling then
        (cur.advance (digits.length - left.length + 1)).here .numberOutOfRange
      else .ok (signedFloat negative 0, cur.advance digits.length)

def exponentFollows (cur : Cursor) : Bool :=
  match cur.rest with
  | 'e' :: _ | 'E' :: _ => true
  | _ => false

def readDecimals (negative : Bool) (significand : Nat) (start : Int) (cur : Cursor) :
    Except Failure (Numeral × Cursor) :=
  let digits := cur.rest.takeWhile Char.isDigit
  let (significand, left) := absorb maxSignificand significand digits
  let next := cur.advance digits.length
  let exponent := start - (digits.length - left.length : Nat)
  if digits.isEmpty then
    if cur.rest.isEmpty then cur.here .endInValue else cur.ahead .badNumber
  else if exponentFollows next then readExponent negative significand exponent (next.advance 1)
  else decimalAt negative significand exponent next

/-- An integer literal: kept exactly within 64 bits. A zero with a sign is a float. -/
def integerNumeral (negative : Bool) (n : Nat) : Numeral :=
  if !negative then .integer n
  else if n == 0 || n > Nat.pow 2 63 then signedFloat true (Float.ofNat n)
  else .integer (-n)

def readNumber (negative : Bool) (cur : Cursor) : Except Failure (Numeral × Cursor) :=
  match cur.rest with
  | [] => cur.here .endInValue
  | '0' :: c :: _ =>
    if c.isDigit then (cur.advance 1).ahead .badNumber else afterInteger 0 0 (cur.advance 1)
  | c :: _ =>
    if !c.isDigit then cur.ahead .badNumber
    else
      let digits := cur.rest.takeWhile Char.isDigit
      let (significand, left) := absorb maxSignificand 0 digits
      afterInteger significand left.length (cur.advance digits.length)
where
  /-- What may follow the integer part: decimals, an exponent, or nothing. -/
  afterInteger (significand dropped : Nat) (cur : Cursor) : Except Failure (Numeral × Cursor) :=
    match cur.rest with
    | '.' :: _ => readDecimals negative significand dropped (cur.advance 1)
    | _ =>
      if exponentFollows cur then readExponent negative significand dropped (cur.advance 1)
      else if dropped == 0 then .ok (integerNumeral negative significand, cur)
      else decimalAt negative significand dropped cur

/-- One step of a JSON text. -/
inductive Event where
  | scalar (value : Json)
  | beginArray
  | endArray
  | beginObject
  | key (name : String)
  | endObject
deriving Repr, Inhabited

/-- An event with the offsets of its first byte and of the byte after it. -/
structure Located where
  event : Event
  start : Nat
  stop : Nat
deriving Repr, Inhabited

/-- The events of a text, and the fault that ends it if it is malformed. -/
structure Events where
  events : List Located
  failure : Option Failure
deriving Repr

/-- An open container. -/
inductive Container where
  | array
  | object
deriving DecidableEq, Repr

/-- What is expected next. -/
inductive Expected where
  | value
  | firstItem
  | firstKey
  | colon
  | next
deriving DecidableEq, Repr

/-- The number of nested containers that is too deep. -/
def depthLimit : Nat := 128

/-- Where a scan stands. -/
structure ScanState where
  position : Cursor
  expected : Expected
  /-- The open containers, innermost first. -/
  containers : List Container

namespace ScanState

def emit (s : ScanState) (event : Event) (start : Nat) (position : Cursor) (expected : Expected)
    (containers : List Container := s.containers) : Located × ScanState :=
  (⟨event, start, position.offset⟩, ⟨position, expected, containers⟩)

def word (cur : Cursor) : List Char → Except Failure Cursor
  | [] => .ok cur
  | c :: cs =>
    match cur.rest with
    | [] => cur.here .endInValue
    | c' :: _ => if c == c' then word (cur.advance 1) cs else cur.ahead .expectedWord

def opened (s : ScanState) (cur : Cursor) (container : Container) (event : Event)
    (expected : Expected) : Except Failure (Located × ScanState) :=
  if s.containers.length + 1 ≥ depthLimit then cur.ahead .tooDeep
  else .ok (s.emit event cur.offset (cur.advance 1) expected (container :: s.containers))

/-- Reads the start of a value, or all of a scalar. -/
def value (s : ScanState) (cur : Cursor) : Except Failure (Located × ScanState) :=
  let scalar (result : Json × Cursor) : Located × ScanState :=
    s.emit (.scalar result.1) cur.offset result.2 .next
  match cur.rest with
  | [] => cur.here .endInValue
  | 'n' :: _ => return scalar (.null, ← word (cur.advance 1) ['u', 'l', 'l'])
  | 't' :: _ => return scalar (.bool true, ← word (cur.advance 1) ['r', 'u', 'e'])
  | 'f' :: _ => return scalar (.bool false, ← word (cur.advance 1) ['a', 'l', 's', 'e'])
  | '"' :: rest => do
    let (text, cur) ← readString rest (cur.offset + 1) ""
    return scalar (.string text, cur)
  | '[' :: _ => s.opened cur .array .beginArray .firstItem
  | '\x7b' :: _ => s.opened cur .object .beginObject .firstKey
  | '-' :: _ => do
    let (n, cur) ← readNumber true (cur.advance 1)
    return scalar (.number n, cur)
  | c :: _ =>
    if c.isDigit then do
      let (n, cur) ← readNumber false cur
      return scalar (.number n, cur)
    else cur.ahead .expectedValue

def closed (s : ScanState) (cur : Cursor) (event : Event) : Located × ScanState :=
  s.emit event cur.offset (cur.advance 1) .next s.containers.tail

def key (s : ScanState) (cur : Cursor) : Except Failure (Located × ScanState) :=
  match cur.rest with
  | '"' :: rest => do
    let (text, next) ← readString rest (cur.offset + 1) ""
    return s.emit (.key text) cur.offset next .colon
  | _ => cur.ahead .keyNotString

/-- The next event; nothing at the end of the text. -/
def step (s : ScanState) : Except Failure (Option (Located × ScanState)) :=
  let cur := s.position.skipBlanks
  match s.expected, s.containers with
  | .value, _ => some <$> s.value cur
  | .firstItem, _ =>
    match cur.rest with
    | [] => cur.here .endInList
    | ']' :: _ => return s.closed cur .endArray
    | _ => some <$> s.value cur
  | .firstKey, _ =>
    match cur.rest with
    | [] => cur.here .endInObject
    | '\x7d' :: _ => return s.closed cur .endObject
    | _ => some <$> s.key cur
  | .colon, _ =>
    match cur.rest with
    | [] => cur.here .endInObject
    | ':' :: _ => some <$> s.value (cur.advance 1).skipBlanks
    | _ => cur.ahead .expectedColon
  | .next, [] => if cur.rest.isEmpty then return none else cur.ahead .trailingText
  | .next, .array :: _ =>
    match cur.rest with
    | [] => cur.here .endInList
    | ']' :: _ => return s.closed cur .endArray
    | ',' :: _ =>
      let cur := (cur.advance 1).skipBlanks
      match cur.rest with
      | ']' :: _ => cur.ahead .trailingComma
      | _ => some <$> s.value cur
    | _ => cur.ahead .expectedItemEnd
  | .next, .object :: _ =>
    match cur.rest with
    | [] => cur.here .endInObject
    | '\x7d' :: _ => return s.closed cur .endObject
    | ',' :: _ =>
      let cur := (cur.advance 1).skipBlanks
      match cur.rest with
      | [] => cur.here .endInValue
      | '\x7d' :: _ => cur.ahead .trailingComma
      | _ => some <$> s.key cur
    | _ => cur.ahead .expectedMemberEnd

/-- The events from here on. Each event takes at least one character, which bounds their number. -/
def run : Nat → ScanState → List Located → Events
  | 0, _, done => ⟨done.reverse, none⟩
  | fuel + 1, s, done =>
    match s.step with
    | .error failure => ⟨done.reverse, some failure⟩
    | .ok none => ⟨done.reverse, none⟩
    | .ok (some (event, s)) => run fuel s (event :: done)

end ScanState

def Events.ofText (text : String) : Events :=
  ScanState.run (text.length + 1) ⟨⟨text.toList, 0⟩, .value, []⟩ []

/-- The line of an offset, counted from one, and its column, counted in bytes. -/
def lineColumn (text : String) (offset : Nat) : Nat × Nat :=
  go text.toList offset 1 0
where
  /-- Walks over `left` bytes. -/
  go : List Char → Nat → Nat → Nat → Nat × Nat
    | [], _, line, column => (line, column)
    | c :: rest, left, line, column =>
      if left = 0 then (line, column)
      else if c == '\n' then go rest (left - 1) (line + 1) 0
      else go rest (left - c.utf8Size) line (column + min left c.utf8Size)

def locate (text : String) (message : String) (offset : Nat) : String :=
  let (line, column) := lineColumn text offset
  s!"{message} at line {line} column {column}"

end SchemaCatalog.Json
