import SchemaCatalog.Json.Event
import SchemaCatalog.Pattern.Plain.Basic
import SchemaCatalog.Text.Alphanumeric

namespace SchemaCatalog.Pattern

def isBlank (c : Char) : Bool :=
  let n := c.toNat
  (9 ≤ n && n ≤ 13) || n == 0x20 || n == 0x85 || n == 0xa0 || n == 0x1680 ||
    (0x2000 ≤ n && n ≤ 0x200a) || n == 0x2028 || n == 0x2029 || n == 0x202f || n == 0x205f ||
    n == 0x3000

/-- A text without the blanks and line comments at its start. -/
def dropBlanks (inComment : Bool) : List Char → List Char
  | [] => []
  | c :: rest =>
    if inComment then dropBlanks (c != '\n') rest
    else if isBlank c then dropBlanks false rest
    else if c == '#' then dropBlanks true rest
    else c :: rest

/-- The value of hexadecimal digits as a character. -/
def codePoint? (digits : List Char) : Option Char := do
  if digits.isEmpty then failure
  let values ← digits.mapM Json.hexDigit?
  let code := values.foldl (fun code value => 16 * code + value) 0
  if code < 0xd800 || (0xdfff < code && code < 0x110000) then return Char.ofNat code else failure

def decimal (digits : List Char) : Nat := digits.foldl (fun n c => 10 * n + (c.toNat - 48)) 0

namespace Plain

/-- Why a text is no plain pattern. -/
inductive Fault where
  /-- A condition on the text around a match. -/
  | surroundings
  /-- An escape for a control character, with the text after its `c`. -/
  | control (rest : List Char)
  | malformed

/-- What is left of a text, whether blanks and comments count for nothing, and the names of groups.
-/
structure Place where
  rest : List Char
  spaced : Bool := false
  names : List String := []

abbrev Read := StateT Place (Except Fault)

def reject {α : Type} : Read α := throw .malformed

def peek : Read (Option Char) := do return (← get).rest.head?

def atText (text : String) : Read Bool := do return text.toList.isPrefixOf (← get).rest

def skip (count : Nat) : Read Unit := modify fun p => { p with rest := p.rest.drop count }

def skipBlanks : Read Unit :=
  modify fun p => if p.spaced then { p with rest := dropBlanks false p.rest } else p

def step : Read Unit := do
  skip 1
  skipBlanks

def stepOn : Read Char := do
  step
  match ← peek with
  | some c => return c
  | none => reject

/-- Reads characters up to one that a test holds of. -/
def readUntil (test : Char → Bool) : Nat → Read (List Char)
  | 0 => return []
  | fuel + 1 => do
    match ← peek with
    | none => return []
    | some c =>
      if test c then return []
      step
      return c :: (← readUntil test fuel)

def readBraces : Read (List Char) := do
  step
  let text ← readUntil (· == '}') (← get).rest.length
  if (← peek).isNone then reject
  return text

def readDigits : Nat → Read (List Char)
  | 0 => return []
  | count + 1 => do
    match ← peek with
    | none => reject
    | some c =>
      if (Json.hexDigit? c).isNone then reject
      step
      return c :: (← readDigits count)

/-- Reads the code point of a character after the letter of its escape, which tells how many digits
it has outside braces. -/
def readCodePoint (letter : Char) : Read Char := do
  let first ← stepOn
  let digits ←
    if first == '{' then do
      let digits ← readBraces
      step
      pure digits
    else readDigits (if letter == 'x' then 2 else if letter == 'u' then 4 else 8)
  match codePoint? digits with
  | some c => return c
  | none => reject

/-- Reads the name of a property after the letter of its escape. -/
def readProperty : Read String := do
  let first ← stepOn
  if first == '{' then
    let name ← readBraces
    skip 1
    return String.ofList name
  if first == '\\' then reject
  step
  return String.singleton first

/-- Reads the kind of an edge of a word in braces, if there is one. -/
def readWordEdge : Read Unit := do
  let start ← get
  let isLetter (c : Char) : Bool := c.isAlpha || c == '-'
  if !(← atText "\x7b") then return
  let first ← stepOn
  if isLetter first then
    let kind ← readUntil (fun c => !isLetter c) (← get).rest.length
    let kinds := ["start", "end", "start-half", "end-half"]
    if (← atText "\x7d") && kinds.contains (String.ofList kind) then skip 1 else reject
  else set start

def escapesItself (c : Char) : Bool :=
  c.toNat < 128 && !c.isAlphanum && c != '<' && c != '>'

/-- The control characters that have a letter. -/
def controlOfLetter? : Char → Option Char
  | 'f' => some '\x0c'
  | 't' => some '\t'
  | 'n' => some '\n'
  | 'r' => some '\r'
  | 'v' => some '\x0b'
  | _ => none

/-- Reads an escape from its backslash on. -/
def readEscape : Read Plain := do
  skip 1
  let some c ← peek | reject
  if c == 'x' || c == 'u' || c == 'U' then return .character (← readCodePoint c)
  if c == 'p' || c == 'P' then
    let property := CharSet.property (← readProperty)
    return .oneOf (if c == 'P' then .negation property else property)
  skip 1
  if ['d', 's', 'w', 'D', 'S', 'W'].contains c then return .oneOf (.shorthand c)
  if escapesItself c then return .character c
  if let some control := controlOfLetter? c then return .character control
  if c == 'a' then return .bell
  if c == 'b' then
    readWordEdge
    return .edge
  if ['A', 'z', 'B', '<', '>'].contains c then return .edge
  if c == 'c' then throw (.control (← get).rest)
  reject

def classNames : List String :=
  ["alnum", "alpha", "ascii", "blank", "cntrl", "digit", "graph", "lower", "print", "punct",
    "space", "upper", "word", "xdigit"]

/-- The text after a named class at its start. -/
def afterNamedClass? (text : List Char) : Option (List Char) :=
  match text with
  | '[' :: ':' :: rest =>
    let rest := match rest with
      | '^' :: rest => rest
      | rest => rest
    let name := rest.takeWhile (· != ':')
    match rest.drop name.length with
    | ':' :: ']' :: rest => if classNames.contains (String.ofList name) then some rest else none
    | _ => none
  | _ => none

/-- Reads a member of a set: a character or a set of its own. -/
def readMember : Read CharSet := do
  match ← peek with
  | none => reject
  | some '\\' =>
    match ← readEscape with
    | .character c => return .single c
    | .bell => return .single '\x07'
    | .oneOf set => return set
    | _ => reject
  | some c =>
    skip 1
    return .single c

def startsRange (place : Place) : Bool :=
  let rest := place.rest.drop 1
  let rest := if place.spaced then dropBlanks false rest else rest
  rest.head? != some ']' && rest.head? != some '-'

/-- Reads a member of a set or an ascending range of characters. -/
def readRange : Read CharSet := do
  let first ← readMember
  skipBlanks
  match ← peek with
  | none => reject
  | some '-' =>
    if !startsRange (← get) then return first
    let _ ← stepOn
    match first, ← readMember with
    | .range low _, .range high _ => if low ≤ high then return .range low high else reject
    | _, _ => reject
  | some _ => return first

def readHyphens : Nat → Read (List CharSet)
  | 0 => return []
  | fuel + 1 => do
    if !(← atText "-") then return []
    let _ ← stepOn
    return .single '-' :: (← readHyphens fuel)

def readSetStart : Read (List CharSet) := do
  let hyphens ← readHyphens (← get).rest.length
  if hyphens.isEmpty && (← atText "]") then
    let _ ← stepOn
    return [.single ']']
  return hyphens

def atOperator : Read Bool := do
  return (← atText "&&") || (← atText "--") || (← atText "~~")

mutual

def readSet : Nat → Read CharSet
  | 0 => reject
  | fuel + 1 => do
    let first ← stepOn
    if first == '^' then
      let _ ← stepOn
      return .bracketed (.negation (← readMembers fuel none (← readSetStart)))
    return .bracketed (← readMembers fuel none (← readSetStart))

/-- Reads the members of a set up to its closing bracket, given what stands before the last operator
and the members since. -/
def readMembers : Nat → Option CharSet → List CharSet → Read CharSet
  | 0, _, _ => reject
  | fuel + 1, left, members => do
    skipBlanks
    let joined : CharSet := match left with
      | some left => .combination left (.ofList members)
      | none => .ofList members
    match ← peek with
    | none => reject
    | some '[' =>
      match afterNamedClass? (← get).rest with
      | some rest =>
        modify fun p => { p with rest := rest }
        readMembers fuel left (members ++ [.named])
      | none => readMembers fuel left (members ++ [← readSet fuel])
    | some ']' =>
      skip 1
      return joined
    | some _ =>
      if ← atOperator then
        skip 2
        readMembers fuel (some joined) []
      else readMembers fuel left (members ++ [← readRange])

end

/-- What a group starts with. -/
inductive GroupStart where
  /-- A body follows. Blanks may count for nothing in it. -/
  | body (captures spaced : Bool)
  /-- Flags for the rest of the enclosing group. -/
  | flags (spaced : Bool)

def isGroupName : List Char → Bool
  | [] => false
  | c :: rest =>
    (c == '_' || Text.isLetter c) &&
      rest.all fun c => c == '_' || c == '.' || c == '[' || c == ']' || Text.isAlphanumeric c

def readGroupName : Read Unit := do
  let rest := (← get).rest
  let name := rest.takeWhile (· != '>')
  let known := (← get).names
  if name.length == rest.length || !isGroupName name || known.contains (String.ofList name) then
    reject
  modify fun p =>
    { p with rest := p.rest.drop (name.length + 1), names := String.ofList name :: known }

/-- Whether a text is a list of flags: each once, and at most one hyphen, before those turned off.
-/
def areFlags (flags : List Char) : Bool :=
  flags.all ['i', 'm', 's', 'U', 'u', 'R', 'x', '-'].contains && flags.eraseDups == flags &&
    flags.getLast? != some '-'

/-- Whether blanks count for nothing after flags, given whether they did so before. -/
def spacedAfter (flags : List Char) (spaced : Bool) : Bool :=
  if flags.contains 'x' then !(flags.takeWhile (· != 'x')).contains '-' else spaced

/-- Reads flags up to the end of the group or to its body. -/
def readFlags : Read GroupStart := do
  let place ← get
  let flags := place.rest.takeWhile fun c => c != ':' && c != ')'
  let spaced := spacedAfter flags place.spaced
  skip flags.length
  if !areFlags flags then reject
  match ← peek with
  | some ':' =>
    skip 1
    return .body false spaced
  | some ')' =>
    skip 1
    if flags.isEmpty then reject
    return .flags spaced
  | _ => reject

/-- Reads the start of a group from its parenthesis on. -/
def readGroupStart : Read GroupStart := do
  step
  for sign in ["?=", "?!", "?<=", "?<!"] do
    if ← atText sign then throw .surroundings
  for sign in ["?P<", "?<"] do
    if ← atText sign then
      skip sign.length
      readGroupName
      return .body true (← get).spaced
  if ← atText "?" then
    skip 1
    readFlags
  else return .body true (← get).spaced

def countLimit : Nat := 4294967295

def readCount : Read Nat := do
  modify fun p => { p with rest := p.rest.dropWhile isBlank }
  let digits ← readUntil (fun c => !c.isDigit) (← get).rest.length
  modify fun p => { p with rest := p.rest.dropWhile isBlank }
  if digits.isEmpty || countLimit < decimal digits then reject
  return decimal digits

/-- Reads the bounds of a repetition from the opening brace on. -/
def readBounds : Read (Nat × Option Nat) := do
  let _ ← stepOn
  let least ← readCount
  let most ←
    if ← atText "," then do
      if (← stepOn) == '}' then pure none else pure (some (← readCount))
    else pure (some least)
  if !(← atText "\x7d") then reject
  step
  if most.any (· < least) then reject
  return (least, most)

/-- Repeats the last of the parts read so far, which are given in reverse. -/
def repeatLast (parts : List Plain) (least : Nat) (most : Option Nat) : Read (List Plain) :=
  match parts with
  | [] => reject
  | .flags :: _ => reject
  | part :: rest => do
    if ← atText "?" then skip 1
    return .repetition part least most :: rest

def readPrimitive (c : Char) : Read Plain := do
  if c == '\\' then readEscape
  else
    skip 1
    return if c == '.' then .any else if c == '^' || c == '$' then .edge else .character c

mutual

def readBranches : Nat → Read (List Plain)
  | 0 => reject
  | fuel + 1 => do
    let branch ← readParts fuel []
    if ← atText "|" then
      skip 1
      return branch :: (← readBranches fuel)
    return [branch]

/-- Reads the parts of a sequence, given those before it in reverse. -/
def readParts : Nat → List Plain → Read Plain
  | 0, _ => reject
  | fuel + 1, parts => do
    skipBlanks
    match ← peek with
    | none => return .ofParts parts.reverse
    | some c =>
      if c == '|' || c == ')' then return .ofParts parts.reverse
      else if c == '(' then readParts fuel ((← readGroup fuel) :: parts)
      else if c == '[' then readParts fuel (.oneOf (← readSet fuel) :: parts)
      else if c == '\x7b' then
        if parts.isEmpty then reject
        let (least, most) ← readBounds
        readParts fuel (← repeatLast parts least most)
      else if c == '*' || c == '+' || c == '?' then
        skip 1
        readParts fuel
          (← repeatLast parts (if c == '+' then 1 else 0) (if c == '?' then some 1 else none))
      else readParts fuel ((← readPrimitive c) :: parts)

/-- Reads a group, or flags, from the opening parenthesis on. -/
def readGroup : Nat → Read Plain
  | 0 => reject
  | fuel + 1 => do
    let outer := (← get).spaced
    match ← readGroupStart with
    | .flags spaced =>
      modify fun p => { p with spaced := spaced }
      return .flags
    | .body captures spaced =>
      modify fun p => { p with spaced := spaced }
      let body := Plain.ofBranches (← readBranches fuel)
      if !(← atText ")") then reject
      modify fun p => { p with rest := p.rest.drop 1, spaced := outer }
      return .group captures body

end

def depthLimit : Nat := 250

def read (text : List Char) : Except Fault Plain := do
  let (branches, place) ← (readBranches (3 * text.length + 3)).run { rest := text }
  let pattern := Plain.ofBranches branches
  if !place.rest.isEmpty || depthLimit < pattern.depth then throw .malformed
  return pattern

def canMatch (text : List Char) : Bool :=
  match read text with
  | .ok pattern => pattern.hasAutomaton
  | .error _ => false

end Plain

end SchemaCatalog.Pattern
