import SchemaCatalog.Entries
import SchemaCatalog.Pattern.Extended.Basic

namespace SchemaCatalog.Pattern.Extended

/-- What counts for nothing and is being passed over. -/
inductive Gap where
  | none
  /-- A comment up to the end of the line. -/
  | line
  /-- A comment up to a closing parenthesis, unless that is escaped. -/
  | group

/-- A text without the comments at its start, and without blanks if they count for nothing; no text
if a comment does not end. -/
def dropGap (spaced : Bool) : Gap → List Char → Option (List Char)
  | .group, [] => failure
  | _, [] => some []
  | .line, c :: rest => dropGap spaced (if c == '\n' then .none else .line) rest
  | .group, '\\' :: rest =>
    match rest with
    | [] => failure
    | _ :: rest => dropGap spaced .group rest
  | .group, c :: rest => dropGap spaced (if c == ')' then .none else .group) rest
  | .none, '(' :: '?' :: '#' :: rest => dropGap spaced .group rest
  | .none, c :: rest =>
    if spaced && c == '#' then dropGap spaced .line rest
    else if spaced && [' ', '\t', '\r', '\n'].contains c then dropGap spaced .none rest
    else some (c :: rest)

/-- Which flags are set. -/
structure Flags where
  caseless : Bool := false
  byLine : Bool := false
  acrossLines : Bool := false
  spaced : Bool := false

/-- What is left of a text, and what has been read: how many groups were opened, their names, and
the groups that are referred to by number and at all. -/
structure Place where
  rest : List Char
  size : Nat
  flags : Flags := {}
  opened : Nat := 0
  names : Entries Nat := []
  numbered : Bool := false
  referred : List Nat := []

/-- A step that reads a part of a pattern. A text that is no extended pattern gives nothing. -/
abbrev Read := StateT Place Option

def peek : Read (Option Char) := do return (← get).rest.head?

def atText (text : String) : Read Bool := do return text.toList.isPrefixOf (← get).rest

def skip (count : Nat) : Read Unit := modify fun p => { p with rest := p.rest.drop count }

def skipGap : Read Unit := do
  let place ← get
  set { place with rest := ← dropGap place.flags.spaced .none place.rest }

def numberLimit : Nat := 18446744073709551616

def number? (text : List Char) : Option (Nat × List Char) :=
  let digits := text.takeWhile Char.isDigit
  if digits.isEmpty || numberLimit ≤ decimal digits then none
  else some (decimal digits, text.drop digits.length)

/-- The bounds of a repetition in a text after its opening brace, and the text after them. Either
may be left out if there is a comma. -/
def bounds? (spaced : Bool) (text : List Char) : Option (Nat × Option Nat × List Char) := do
  let text ← dropGap spaced .none text
  let (least, text) ← if text.head? == some ',' then pure (0, text) else number? text
  let text ← dropGap spaced .none text
  let (most, text) ←
    match text with
    | '}' :: _ => pure (some least, text)
    | ',' :: rest => do
      let rest ← dropGap spaced .none rest
      match number? rest with
      | some (most, rest) => pure (some most, rest)
      | none => pure (none, rest)
    | _ => failure
  match ← dropGap spaced .none text with
  | '}' :: rest => return (least, most, rest)
  | _ => failure

def isNameChar (c : Char) : Bool := c == '_' || Text.isAlphanumeric c

/-- Reads a name up to a closing text. A name that counts back from the last group starts with a
hyphen. -/
def readName (closing : String) (mayCountBack : Bool) : Read (List Char) := do
  let rest := (← get).rest
  let lead := if mayCountBack && rest.head? == some '-' then ['-'] else []
  let name := lead ++ (rest.drop lead.length).takeWhile isNameChar
  skip name.length
  if name.isEmpty || !(← atText closing) then failure
  skip closing.length
  return name

/-- The group that a name denotes: one of that name, or one by its number, or one counted back from
the last one opened. -/
def groupOfName? (place : Place) (name : List Char) : Option Nat :=
  match place.names.lookup (String.ofList name) with
  | some number => some number
  | none =>
    match name with
    | '-' :: digits =>
      match number? digits with
      | some (back, []) => if back ≤ place.opened + 1 then some (place.opened + 1 - back) else none
      | _ => none
    | digits =>
      match number? digits with
      | some (number, []) => some number
      | _ => none

/-- Notes a reference to a group, which has to have been opened. -/
def refer (number : Nat) : Read Nat := do
  let place ← get
  if number == 0 || place.opened < number then failure
  set { place with referred := number :: place.referred }
  return number

def readNamed (closing : String) (mayCountBack : Bool) : Read Nat := do
  let name ← readName closing mayCountBack
  refer (← groupOfName? (← get) name)

/-- Reads a reference by number. The number has to be small for the length of the pattern. -/
def readNumbered : Read Nat := do
  let place ← get
  let (number, rest) ← number? place.rest
  if place.size / 2 ≤ number then failure
  set { place with rest := rest, numbered := true }
  refer number

/-- Reads the code point of a character: a fixed number of digits, or up to eight in braces. -/
def readCodePoint (length : Nat) : Read Char := do
  let rest := (← get).rest
  let digits := rest.take length
  if digits.length == length && digits.all fun c => (Json.hexDigit? c).isSome then
    skip length
    codePoint? digits
  else
    match rest with
    | '{' :: rest =>
      let digits := rest.takeWhile fun c => (Json.hexDigit? c).isSome
      if 8 < digits.length then failure
      skip (digits.length + 1)
      if !(← atText "\x7d") then failure
      skip 1
      codePoint? digits
    | _ => failure

/-- Reads the name of a property with its escape, of which two characters have been read. -/
def readProperty (escape : List Char) : Read (List Char) := do
  let rest := (← get).rest
  match rest with
  | [] => failure
  | '{' :: _ =>
    let name := rest.takeWhile (· != '}')
    if name.length == rest.length then failure
    skip (name.length + 1)
    return escape ++ name ++ ['}']
  | c :: _ =>
    skip 1
    return escape ++ [c]

def controlOfLetter? : Char → Option Char
  | 'a' => some '\x07'
  | 'e' => some '\x1b'
  | c => Plain.controlOfLetter? c

/-- Reads an escape that means the same within a set and outside of one. -/
def readCommonEscape (c : Char) : Read Extended := do
  let caseless := (← get).flags.caseless
  skip 2
  if ['d', 's', 'w', 'D', 'S', 'W'].contains c then return .oneOf ['\\', c] caseless
  if c == 'h' then return .oneOf "[0-9A-Fa-f]".toList caseless
  if c == 'H' then return .oneOf "[^0-9A-Fa-f]".toList caseless
  if c == 'x' then return .character (← readCodePoint 2) caseless
  if c == 'u' then return .character (← readCodePoint 4) caseless
  if c == 'U' then return .character (← readCodePoint 8) caseless
  if c == 'p' || c == 'P' then return .oneOf (← readProperty ['\\', c]) caseless
  if let some control := controlOfLetter? c then return .character control caseless
  if c.isAlphanum then failure
  return .character c caseless

def readEscape : Read Extended := do
  let some c := (← get).rest[1]? | failure
  if c.isDigit then
    skip 1
    return .reference (← readNumbered)
  match c with
  | 'k' =>
    skip 2
    if !(← atText "<") then failure
    skip 1
    return .reference (← readNamed ">" true)
  | 'A' =>
    skip 2
    return .border "^"
  | 'z' =>
    skip 2
    return .border "$"
  | 'K' =>
    skip 2
    return .matchStart
  | 'G' =>
    skip 2
    return .lastMatchEnd
  | '<' =>
    skip 2
    return .wordEdge
  | '>' =>
    skip 2
    return .wordEdge
  | _ =>
    if c == 'b' || c == 'B' then
      skip 2
      if ← atText "\x7b" then failure
      return .wordEdge
    readCommonEscape c

/-- Reads an escape within a set, in plain spelling. What means a place outside of sets is a
character there. -/
def readSetEscape : Read (List Char) := do
  let some c := (← get).rest[1]? | failure
  if c == 'b' then
    skip 2
    return ['\x08']
  if ['A', 'B', 'G', 'K', 'k', 'z'].contains c then
    skip 2
    return [c]
  match ← readCommonEscape c with
  | .character c _ => return spelledMember c
  | .oneOf spelling _ => return spelling
  | _ => failure

/-- Reads a set in plain spelling up to its last closing bracket, given how many are open. -/
def readSetRest : Nat → Nat → Read (List Char)
  | 0, _ => failure
  | fuel + 1, opened => do
    match ← peek with
    | none => failure
    | some '\\' => return (← readSetEscape) ++ (← readSetRest fuel opened)
    | some ']' =>
      skip 1
      if opened ≤ 1 then return [']'] else return ']' :: (← readSetRest fuel (opened - 1))
    | some c =>
      skip 1
      return c :: (← readSetRest fuel (if c == '[' then opened + 1 else opened))

/-- Reads a set from its opening bracket on. A bracket that comes first does not close it. -/
def readSet : Read Extended := do
  let caseless := (← get).flags.caseless
  let start := if ← atText "[^" then "[^" else "["
  skip start.length
  let closing ←
    if ← atText "]" then do
      skip 1
      pure "]"
    else pure ""
  let rest ← readSetRest ((← get).rest.length + 1) 1
  return .oneOf (start.toList ++ closing.toList ++ rest) caseless

/-- Sets or clears a flag; nothing for a flag that there is not. -/
def Flags.change? (flags : Flags) (on : Bool) : Char → Option Flags
  | 'i' => some { flags with caseless := on }
  | 'm' => some { flags with byLine := on }
  | 's' => some { flags with acrossLines := on }
  | 'x' => some { flags with spaced := on }
  | 'U' => some flags
  | 'u' => if on then some flags else none
  | _ => none

/-- Reads flags up to the end of the group or to its body, given how many signs came before and
whether flags are being cleared. The answer is whether a body follows. -/
def readFlags : Nat → Nat → Bool → Read Bool
  | 0, _, _ => failure
  | fuel + 1, read, clearing => do
    skipGap
    match ← peek with
    | none => failure
    | some ')' =>
      if read == 0 || (clearing && read == 1) then failure
      skip 1
      return false
    | some ':' =>
      if clearing && read == 1 then failure
      skip 1
      return true
    | some '-' =>
      if clearing then failure
      skip 1
      readFlags fuel (read + 1) true
    | some c =>
      skip 1
      let place ← get
      set { place with flags := ← place.flags.change? (!clearing) c }
      readFlags fuel (read + 1) clearing

def depthLimit : Nat := 63

/-- Opens a group that can be referred to, with a name if it has one. -/
def openGroup (name : Option (List Char)) : Read Nat := do
  let place ← get
  let number := place.opened + 1
  let names := match name with
    | some name => place.names.put (String.ofList name) number
    | none => place.names
  set { place with opened := number, names := names }
  return number

def closeGroup : Read Unit := do
  skipGap
  if !(← atText ")") then failure
  skip 1

def borderOf (c : Char) (flags : Flags) : Extended :=
  if flags.byLine then .border (if c == '^' then "(?m:^)" else "(?m:$)")
  else .border (String.singleton c)

/-- A choice by a condition. Without branches the condition stands for itself. -/
def decided (condition body : Extended) : Extended :=
  let condition := match condition with
    | .reference number => .tookPart number
    | condition => condition
  let (yes, no) : Extended × Extended := match body with
    | .choice [yes, no] => (yes, no)
    | .choice (yes :: rest) => (yes, .choice rest)
    | body => (body, .empty)
  if yes.isEmpty && no.isEmpty then condition else .conditional condition yes no

mutual

/-- Reads a choice up to the end of the group. References by number do not go with named groups. -/
def readBranches : Nat → Nat → Read Extended
  | 0, _ => failure
  | fuel + 1, depth => do
    let first ← readSequence fuel depth
    skipGap
    let others ← readOthers fuel depth
    if others.isEmpty then
      let place ← get
      if place.numbered && !place.names.isEmpty then failure
      return first
    return .choice (first :: others)

def readOthers : Nat → Nat → Read (List Extended)
  | 0, _ => failure
  | fuel + 1, depth => do
    if !(← atText "|") then return []
    skip 1
    let branch ← readSequence fuel depth
    skipGap
    return branch :: (← readOthers fuel depth)

def readSequence : Nat → Nat → Read Extended
  | 0, _ => failure
  | fuel + 1, depth => do return ofParts (← readParts fuel depth)

def readParts : Nat → Nat → Read (List Extended)
  | 0, _ => failure
  | fuel + 1, depth => do
    let before := (← get).rest.length
    if before == 0 then return []
    let part ← readPart fuel depth
    if (← get).rest.length == before then return []
    return part :: (← readParts fuel depth)

def readPart : Nat → Nat → Read Extended
  | 0, _ => failure
  | fuel + 1, depth => do
    let part ← readSingle fuel depth
    skipGap
    let place ← get
    match place.rest with
    | '?' :: rest => readRepetition part 0 (some 1) rest
    | '*' :: rest => readRepetition part 0 none rest
    | '+' :: rest => readRepetition part 1 none rest
    | '{' :: rest =>
      match bounds? place.flags.spaced rest with
      | some (least, most, rest) => readRepetition part least most rest
      | none => return part
    | _ => return part

/-- Repeats a part, given the text after the sign. A plus after it makes the match final. -/
def readRepetition (part : Extended) (least : Nat) (most : Option Nat) (rest : List Char) :
    Read Extended := do
  if !part.isRepeatable then failure
  modify fun p => { p with rest := rest }
  skipGap
  if ← atText "?" then skip 1
  let repeated := Extended.repetition part least most
  if ← atText "+" then
    skip 1
    return .atomic repeated
  return repeated

def readSingle : Nat → Nat → Read Extended
  | 0, _ => failure
  | fuel + 1, depth => do
    skipGap
    let place ← get
    match place.rest with
    | [] => return .empty
    | c :: _ =>
      if ['+', '*', '?', '|', ')'].contains c then return .empty
      else if c == '(' then
        skip 1
        if depthLimit ≤ depth then failure
        readGroup fuel (depth + 1)
      else if c == '\\' then readEscape
      else if c == '[' then readSet
      else
        skip 1
        return if c == '.' then .any place.flags.acrossLines
          else if c == '^' || c == '$' then borderOf c place.flags
          else .character c place.flags.caseless

/-- Reads a group after its opening parenthesis. -/
def readGroup : Nat → Nat → Read Extended
  | 0, _ => failure
  | fuel + 1, depth => do
    skipGap
    if ← atText "?=" then readLook fuel depth 2 false
    else if ← atText "?!" then readLook fuel depth 2 false
    else if ← atText "?<=" then readLook fuel depth 3 true
    else if ← atText "?<!" then readLook fuel depth 3 true
    else if ← atText "?<" then
      skip 2
      readCapture fuel depth (some (← readName ">" false))
    else if ← atText "?P<" then
      skip 3
      readCapture fuel depth (some (← readName ">" false))
    else if ← atText "?P=" then
      skip 3
      return .reference (← readNamed ")" false)
    else if ← atText "?>" then
      skip 2
      let body ← readBranches fuel depth
      closeGroup
      return .atomic body
    else if ← atText "?(" then
      skip 2
      readConditional fuel depth
    else if ← atText "?" then
      skip 1
      readFlagged fuel depth
    else readCapture fuel depth none

def readLook : Nat → Nat → Nat → Bool → Read Extended
  | 0, _, _, _ => failure
  | fuel + 1, depth, length, behind => do
    skip length
    let body ← readBranches fuel depth
    closeGroup
    return .look behind body

def readCapture : Nat → Nat → Option (List Char) → Read Extended
  | 0, _, _ => failure
  | fuel + 1, depth, name => do
    let number ← openGroup name
    let body ← readBranches fuel depth
    closeGroup
    return .group number body

/-- Reads flags, and the body that they are for if there is one. -/
def readFlagged : Nat → Nat → Read Extended
  | 0, _ => failure
  | fuel + 1, depth => do
    let outer := (← get).flags
    if !(← readFlags ((← get).rest.length + 1) 0 false) then return .empty
    let body ← readBranches fuel depth
    if !(← atText ")") then failure
    modify fun p => { p with rest := p.rest.drop 1, flags := outer }
    return body

/-- Reads a choice by a condition, from the condition on. -/
def readConditional : Nat → Nat → Read Extended
  | 0, _ => failure
  | fuel + 1, depth => do
    let first ← peek
    let condition ←
      if first.any Char.isDigit then do pure (.reference (← readNumbered))
      else if first == some '<' then do
        skip 1
        pure (.reference (← readNamed ">" true))
      else if first == some '\'' then do
        skip 1
        pure (.reference (← readNamed "'" true))
      else if first.isNone then failure
      else readBranches fuel depth
    closeGroup
    let before := (← get).rest.length
    let body ← readBranches fuel depth
    if (← get).rest.length == before then
      closeGroup
      match condition with
      | .reference number => return .tookPart number
      | _ => failure
    closeGroup
    return decided condition body

end

def read? (text : List Char) : Option (Extended × List Nat) := do
  let start : Place := { rest := text, size := (String.ofList text).utf8ByteSize }
  let (pattern, place) ← (readBranches (8 * text.length + 8) 0).run start
  if !place.rest.isEmpty then failure
  return (pattern, place.referred)

end SchemaCatalog.Pattern.Extended
