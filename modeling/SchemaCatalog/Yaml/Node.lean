import SchemaCatalog.Entries
import SchemaCatalog.Yaml.Token

namespace SchemaCatalog.Yaml

/-- A node. An alias is the number of the anchor that it names. -/
inductive Node where
  | alias (number : Nat)
  | scalar (tag : Option String) (text : String) (plain : Bool)
  | sequence (tag : Option String) (items : List Node)
  | mapping (tag : Option String) (entries : List (Node × Node))
deriving Inhabited

/-- A document: its root, nothing for an empty text, and the nodes of its anchors by their numbers.
Of several anchors with one number the one that starts last comes first. -/
structure Document where
  root : Option Node
  anchored : List (Nat × Node)

namespace Node

def absent : Node := .scalar none "" true

/-- What is read so far: the tokens that are left, what tag handles mean, the number of each anchor
name, and the anchors in the order in which they start, each with its number and its node. -/
structure State where
  tokens : List Token
  handles : Entries String := []
  numbers : Entries Nat := []
  anchored : Array (Nat × Node) := #[]

abbrev Read := StateT State (Except Fault)

def peek : Read (Option Token) := do return (← get).tokens.head?

def skip : Read Unit := modify fun s => { s with tokens := s.tokens.drop 1 }

def nextIn (tokens : List Token) : Read Bool := do
  match ← peek with
  | none => return false
  | some token => return tokens.contains token

def aliasNumber (name : String) : Read Nat := do
  match (← get).numbers.lookup name with
  | some number => return number
  | none => throw .unknownAnchor

/-- Starts an anchor, whose number is that of the names that are known. Its place among all anchors
is the answer. -/
def startAnchor (name : String) : Read Nat := do
  let s ← get
  let number := s.numbers.length
  set { s with numbers := s.numbers.put name number, anchored := s.anchored.push (number, absent) }
  return s.anchored.size

def anchorNode (place : Nat) (node : Node) : Read Unit :=
  modify fun s => { s with anchored := s.anchored.modify place fun (number, _) => (number, node) }

/-- The tag that a handle and a suffix stand for. -/
def fullTag (handle suffix : String) : Read String := do
  if handle.isEmpty then return suffix
  match (← get).handles.lookup handle with
  | some lead => return lead ++ suffix
  | none => throw .unknownHandle

/-- The tag at hand, if there is one. -/
def readTag? : Read (Option String) := do
  match ← peek with
  | some (.tag handle suffix) =>
    skip
    return some (← fullTag handle suffix)
  | _ => return none

/-- The anchor at hand, if there is one, by its place among all anchors. -/
def readAnchor? : Read (Option Nat) := do
  match ← peek with
  | some (.anchor name) =>
    skip
    return some (← startAnchor name)
  | _ => return none

/-- The anchor and tag in front of a node, in any order. -/
def properties : Read (Option Nat × Option String) := do
  match ← readAnchor? with
  | some place => return (some place, ← readTag?)
  | none =>
    let tag ← readTag?
    return (← readAnchor?, tag)

mutual

/-- Reads a node. Block collections are only allowed in block context, and a sequence that is not
indented only as part of a mapping. -/
def read : Nat → Bool → Bool → Read Node
  | 0, _, _ => throw .expectedNode
  | fuel + 1, block, unindented => do
    match ← peek with
    | some (.alias name) =>
      skip
      return .alias (← aliasNumber name)
    | _ =>
      let (anchor, tag) ← properties
      let node ← readContent fuel block unindented (anchor.isSome || tag.isSome) tag
      if let some place := anchor then anchorNode place node
      return node

/-- Reads a node after its anchor and tag, without which it may not be left out. -/
def readContent : Nat → Bool → Bool → Bool → Option String → Read Node
  | 0, _, _, _, _ => throw .expectedNode
  | fuel + 1, block, unindented, mayLack, tag => do
    match ← peek, block, unindented with
    | some .blockEntry, _, true => return .sequence tag (← readUnindented fuel)
    | some (.scalar text plain), _, _ =>
      skip
      return .scalar tag text plain
    | some .flowSequenceStart, _, _ =>
      skip
      return .sequence tag (← readFlowItems fuel true)
    | some .flowMappingStart, _, _ =>
      skip
      return .mapping tag (← readFlowEntries fuel true)
    | some .blockSequenceStart, true, _ =>
      skip
      return .sequence tag (← readBlockItems fuel)
    | some .blockMappingStart, true, _ =>
      skip
      return .mapping tag (← readBlockEntries fuel)
    | _, _, _ => if mayLack then return .scalar tag "" true else throw .expectedNode

def readUnless : Nat → Bool → Bool → List Token → Read Node
  | 0, _, _, _ => throw .expectedNode
  | fuel + 1, block, unindented, tokens => do
    if ← nextIn tokens then return absent else read fuel block unindented

/-- Reads the items of a block sequence. -/
def readBlockItems : Nat → Read (List Node)
  | 0 => throw .expectedEntry
  | fuel + 1 => do
    match ← peek with
    | some .blockEntry =>
      skip
      let item ← readUnless fuel true false [.blockEntry, .blockEnd]
      return item :: (← readBlockItems fuel)
    | some .blockEnd =>
      skip
      return []
    | _ => throw .expectedEntry

/-- Reads the items of a sequence that stands at the column of its mapping. -/
def readUnindented : Nat → Read (List Node)
  | 0 => throw .expectedEntry
  | fuel + 1 => do
    match ← peek with
    | some .blockEntry =>
      skip
      let item ← readUnless fuel true false [.blockEntry, .key, .value, .blockEnd]
      return item :: (← readUnindented fuel)
    | _ => return []

def readValue : Nat → Bool → List Token → Read Node
  | 0, _, _ => throw .expectedNode
  | fuel + 1, block, tokens => do
    match ← peek with
    | some .value =>
      skip
      readUnless fuel block block tokens
    | _ => return absent

/-- Reads the entries of a block mapping. -/
def readBlockEntries : Nat → Read (List (Node × Node))
  | 0 => throw .expectedKey
  | fuel + 1 => do
    match ← peek with
    | some .key =>
      skip
      let key ← readUnless fuel true true [.key, .value, .blockEnd]
      let value ← readValue fuel true [.key, .value, .blockEnd]
      return (key, value) :: (← readBlockEntries fuel)
    | some .blockEnd =>
      skip
      return []
    | _ => throw .expectedKey

/-- Reads the items of a flow sequence. A key makes a mapping of one entry. -/
def readFlowItems : Nat → Bool → Read (List Node)
  | 0, _ => throw .unclosedFlow
  | fuel + 1, first => do
    if !first && !(← nextIn [.flowSequenceEnd]) then
      if ← nextIn [.flowEntry] then skip else throw .unclosedFlow
    match ← peek with
    | some .flowSequenceEnd =>
      skip
      return []
    | some .key =>
      skip
      let key ←
        if ← nextIn [.value, .flowEntry, .flowSequenceEnd] then do
          skip
          pure absent
        else read fuel false false
      let value ← readValue fuel false [.flowEntry, .flowSequenceEnd]
      return .mapping none [(key, value)] :: (← readFlowItems fuel false)
    | _ =>
      let item ← read fuel false false
      return item :: (← readFlowItems fuel false)

/-- Reads the entries of a flow mapping. -/
def readFlowEntries : Nat → Bool → Read (List (Node × Node))
  | 0, _ => throw .unclosedFlow
  | fuel + 1, first => do
    if !first && !(← nextIn [.flowMappingEnd]) then
      if ← nextIn [.flowEntry] then skip else throw .unclosedFlow
    match ← peek with
    | some .flowMappingEnd =>
      skip
      return []
    | some .key =>
      skip
      let key ← readUnless fuel false false [.value, .flowEntry, .flowMappingEnd]
      let value ← readValue fuel false [.flowEntry, .flowMappingEnd]
      return (key, value) :: (← readFlowEntries fuel false)
    | _ =>
      let key ← read fuel false false
      return (key, absent) :: (← readFlowEntries fuel false)

end

def readDirectives : List Token → Bool → Entries String → Except Fault (List Token × Entries String)
  | .versionDirective major minor :: rest, versioned, handles =>
    if versioned || major != 1 || (minor != 1 && minor != 2) then .error .badDirective
    else readDirectives rest true handles
  | .tagDirective handle lead :: rest, versioned, handles =>
    if handles.has handle then .error .badDirective
    else readDirectives rest versioned (handles.put handle lead)
  | tokens, _, handles => .ok (tokens, handles)

def standardHandles : Entries String := [("!", "!"), ("!!", "tag:yaml.org,2002:")]

def readRoot (explicit : Bool) (fuel : Nat) : Read Node := do
  if explicit then
    match ← peek with
    | none | some .documentEnd | some .documentStart | some (.versionDirective ..)
    | some (.tagDirective ..) => return absent
    | _ => read fuel true false
  else read fuel true false

end Node

/-- The document of a list of tokens. There may be only one. -/
def Document.ofTokens (tokens : List Token) : Except Fault Document := do
  if tokens.isEmpty then return ⟨none, []⟩
  let (rest, handles) ← Node.readDirectives tokens false []
  let handles := handles.addMissing Node.standardHandles
  let explicit := rest.head? == some .documentStart
  if !explicit && rest.length < tokens.length then throw .badDirective
  let rest := if explicit then rest.drop 1 else rest
  let (root, state) ←
    (Node.readRoot explicit (4 * tokens.length + 4)).run { tokens := rest, handles := handles }
  if !(state.tokens.dropWhile (· == .documentEnd)).isEmpty then throw .severalDocuments
  return ⟨some root, state.anchored.toList.reverse⟩

end SchemaCatalog.Yaml
