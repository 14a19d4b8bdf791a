import SchemaCatalog.Pattern.Property

namespace SchemaCatalog.Pattern

/-- What a single character may be. -/
inductive CharSet where
  | range (low high : Char)
  /-- Digits, blanks or word characters, or those that are none, by the letter of their escape. -/
  | shorthand (letter : Char)
  | property (name : String)
  /-- A class of ASCII characters with a name in brackets and colons. -/
  | named
  | negation (set : CharSet)
  | bracketed (set : CharSet)
  | union (sets : List CharSet)
  /-- Two sets joined by an operator that keeps part of them. -/
  | combination (left right : CharSet)
deriving Repr, Inhabited

namespace CharSet

def single (c : Char) : CharSet := .range c c

def ofList : List CharSet → CharSet
  | [set] => set
  | sets => .union sets

mutual

def depth : CharSet → Nat
  | .range .. => 0
  | .shorthand _ => 0
  | .property _ => 0
  | .named => 0
  | .negation set => depth set
  | .bracketed set => 1 + depth set
  | .union sets => (if sets.isEmpty then 0 else 1) + depthOfAll sets
  | .combination left right => 1 + max (depth left) (depth right)

def depthOfAll : List CharSet → Nat
  | [] => 0
  | set :: rest => max (depth set) (depthOfAll rest)

end

mutual

def isKnown : CharSet → Bool
  | .range .. => true
  | .shorthand _ => true
  | .property name => Property.isKnown name
  | .named => true
  | .negation set => isKnown set
  | .bracketed set => isKnown set
  | .union sets => areKnown sets
  | .combination left right => isKnown left && isKnown right

def areKnown : List CharSet → Bool
  | [] => true
  | set :: rest => isKnown set && areKnown rest

end

mutual

def isWide : CharSet → Bool
  | .range _ high => 128 ≤ high.toNat
  | .shorthand _ => true
  | .property _ => true
  | .named => false
  | .negation _ => true
  | .bracketed set => isWide set
  | .union sets => anyIsWide sets
  | .combination left right => isWide left || isWide right

def anyIsWide : List CharSet → Bool
  | [] => false
  | set :: rest => isWide set || anyIsWide rest

end

/-- The weight of a range of characters. Within ASCII it takes one transition of a state, or a state
of its own in a set that reaches further; beyond that it takes a state for each byte and more where
the bytes before the last differ. -/
def rangeWeight (wide : Bool) (low high : Char) : Nat :=
  if high.toNat < 0x80 then if wide then 36 else 8
  else if low == high then 32 * high.utf8Size + 4
  else if high.toNat < 0x800 then 70
  else if high.toNat < 0x10000 then 300
  else if low.toNat < 0x10000 then 900
  else 200

/-- The weight of the characters that an ASCII range has not. -/
def complementWeight : Nat := 900

mutual

/-- About how many bytes the states take that recognize a character of a set, given whether it is
part of one that reaches beyond ASCII. -/
def weight (wide : Bool) : CharSet → Nat
  | .range low high => rangeWeight wide low high
  | .shorthand letter =>
    match letter with
    | 'd' => 5100
    | 'D' => 12800
    | 's' => 600
    | 'S' => 1900
    | _ => 50000
  | .property name => Property.weight name
  | .named => 16
  | .negation set => complementWeight + weight true set
  | .bracketed set => weight wide set
  | .union sets => weightOfAll wide sets
  | .combination left right => weight wide left + weight wide right

def weightOfAll (wide : Bool) : List CharSet → Nat
  | [] => 0
  | set :: rest => weight wide set + weightOfAll wide rest

end

end CharSet

/-- A plain pattern. -/
inductive Plain where
  | empty
  | character (c : Char)
  /-- The bell as an escape of its own, which not all dialects have. -/
  | bell
  | any
  /-- A condition on the position that takes no character. -/
  | edge
  | oneOf (set : CharSet)
  /-- Flags for the rest of the enclosing group. -/
  | flags
  | group (captures : Bool) (body : Plain)
  | repetition (body : Plain) (least : Nat) (most : Option Nat)
  | sequence (parts : List Plain)
  | choice (branches : List Plain)
deriving Repr, Inhabited

namespace Plain

def ofParts : List Plain → Plain
  | [] => .empty
  | [part] => part
  | parts => .sequence parts

def ofBranches : List Plain → Plain
  | [branch] => branch
  | branches => .choice branches

mutual

def depth : Plain → Nat
  | .empty => 0
  | .character _ => 0
  | .bell => 0
  | .any => 0
  | .edge => 0
  | .oneOf set => set.depth
  | .flags => 0
  | .group _ body => 1 + depth body
  | .repetition body _ _ => 1 + depth body
  | .sequence parts => 1 + depthOfAll parts
  | .choice branches => 1 + depthOfAll branches

def depthOfAll : List Plain → Nat
  | [] => 0
  | part :: rest => max (depth part) (depthOfAll rest)

end

mutual

def hasBell : Plain → Bool
  | .bell => true
  | .group _ body => hasBell body
  | .repetition body _ _ => hasBell body
  | .sequence parts => anyHasBell parts
  | .choice branches => anyHasBell branches
  | _ => false

def anyHasBell : List Plain → Bool
  | [] => false
  | part :: rest => hasBell part || anyHasBell rest

end

mutual

def isKnown : Plain → Bool
  | .oneOf set => set.isKnown
  | .group _ body => isKnown body
  | .repetition body _ _ => isKnown body
  | .sequence parts => areKnown parts
  | .choice branches => areKnown branches
  | _ => true

def areKnown : List Plain → Bool
  | [] => true
  | part :: rest => isKnown part && areKnown rest

end

mutual

/-- Whether a pattern matches nothing but the empty text. -/
def isNarrow : Plain → Bool
  | .empty => true
  | .edge => true
  | .flags => true
  | .group _ body => isNarrow body
  | .repetition body _ most => isNarrow body || most == some 0
  | .sequence parts => areNarrow parts
  | .choice branches => areNarrow branches
  | _ => false

def areNarrow : List Plain → Bool
  | [] => true
  | part :: rest => isNarrow part && areNarrow rest

end

def stateWeight : Nat := 32

/-- The weight of a repetition of a body of given weight. Each further match that is optional takes
a branch. -/
def repeatedWeight (body least : Nat) : Option Nat → Nat
  | some most => least * body + (most - least) * (body + stateWeight + 8) + stateWeight
  | none => max least 1 * body + 2 * stateWeight

mutual

/-- About how many bytes the states take that recognize a pattern. An empty match is only repeated
once. -/
def weight : Plain → Nat
  | .empty => stateWeight
  | .character c => stateWeight * c.utf8Size
  | .bell => stateWeight
  | .any => 2 * stateWeight + CharSet.complementWeight + 36
  | .edge => stateWeight
  | .oneOf set => 2 * stateWeight + set.weight set.isWide
  | .flags => 0
  | .group captures body => (if captures then 2 * stateWeight else 0) + weight body
  | .repetition body least most =>
    if isNarrow body then repeatedWeight (weight body) (min least 1) (most.map (min · 1))
    else repeatedWeight (weight body) least most
  | .sequence parts => weightOfAll parts
  | .choice branches => 2 * stateWeight + 4 * branches.length + weightOfAll branches

def weightOfAll : List Plain → Nat
  | [] => 0
  | part :: rest => weight part + weightOfAll rest

end

/-- The weight that an automaton may have: ten mebibytes. -/
def weightLimit : Nat := 10 * 1024 * 1024

def hasAutomaton (pattern : Plain) : Bool := pattern.isKnown && pattern.weight ≤ weightLimit

end Plain

end SchemaCatalog.Pattern
