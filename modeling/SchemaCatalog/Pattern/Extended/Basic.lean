import SchemaCatalog.Pattern.Plain.Reader

namespace SchemaCatalog.Pattern

/-- An extended pattern. Groups that can be referred to carry their number. -/
inductive Extended where
  | empty
  | any (acrossLines : Bool)
  | character (c : Char) (caseless : Bool)
  /-- The start or end of the text or of a line, in plain spelling. -/
  | border (spelling : String)
  /-- The edge of a word, or a place that is none. -/
  | wordEdge
  /-- A set of characters, in plain spelling. -/
  | oneOf (spelling : List Char) (caseless : Bool)
  | sequence (parts : List Extended)
  | choice (branches : List Extended)
  | group (number : Nat) (body : Extended)
  | look (behind : Bool) (body : Extended)
  | repetition (body : Extended) (least : Nat) (most : Option Nat)
  | reference (number : Nat)
  /-- A group whose match is final once it is found. -/
  | atomic (body : Extended)
  /-- Where the match begins, whatever has been matched before. -/
  | matchStart
  | lastMatchEnd
  | tookPart (number : Nat)
  | conditional (condition yes no : Extended)
deriving Repr, Inhabited

namespace Extended

def isEmpty : Extended → Bool
  | .empty => true
  | _ => false

def isRepeatable : Extended → Bool
  | .look .. => false
  | .empty => false
  | .border _ => false
  | .wordEdge => false
  | _ => true

/-- The sequence of a list without its empty parts; a single part needs none. -/
def ofParts (parts : List Extended) : Extended :=
  match parts.filter (!·.isEmpty) with
  | [] => .empty
  | [part] => part
  | parts => .sequence parts

def spelledCharacter (c : Char) : List Char :=
  if "\\.+*?()|[]\x7b\x7d^$#".toList.contains c then ['\\', c] else [c]

def spelledMember (c : Char) : List Char :=
  if ['&', '-', '~'].contains c then ['\\', c] else spelledCharacter c

def inCase (caseless : Bool) (spelling : List Char) : List Char :=
  if caseless then "(?i:".toList ++ spelling ++ [')'] else spelling

def grouped (needed : Bool) (spelling : List Char) : List Char :=
  if needed then "(?:".toList ++ spelling ++ [')'] else spelling

/-- The sign for the bounds of a repetition. -/
def spelledBounds (least : Nat) (most : Option Nat) : List Char :=
  let braced (text : String) : List Char := '\x7b' :: text.toList ++ ['\x7d']
  match least, most with
  | 0, some 1 => ['?']
  | 0, none => ['*']
  | 1, none => ['+']
  | least, none => braced (toString least ++ ",")
  | least, some most =>
    if least == most then braced (toString least)
    else braced (toString least ++ "," ++ toString most)

mutual

/-- The plain spelling of a pattern that has one. What binds more loosely than `level` is grouped:
choices from level one on, sequences from two on and repetitions at three. -/
def spelled (level : Nat) : Extended → List Char
  | .any acrossLines => if acrossLines then "(?s:.)".toList else ['.']
  | .character c caseless => inCase caseless (spelledCharacter c)
  | .border spelling => spelling.toList
  | .oneOf spelling caseless => inCase caseless spelling
  | .sequence parts => grouped (2 ≤ level) (spelledParts parts)
  | .choice branches => grouped (1 ≤ level) (['|'].intercalate (spelledBranches branches))
  | .group _ body => '(' :: spelled 0 body ++ [')']
  | .repetition body least most =>
    grouped (3 ≤ level) (spelled 3 body ++ spelledBounds least most)
  | _ => []

def spelledParts : List Extended → List Char
  | [] => []
  | part :: rest => spelled 2 part ++ spelledParts rest

def spelledBranches : List Extended → List (List Char)
  | [] => []
  | branch :: rest => spelled 1 branch :: spelledBranches rest

end

mutual

/-- Whether a pattern cannot be left to an automaton. `referred` are the groups that are referred
to. -/
def isHard (referred : List Nat) : Extended → Bool
  | .empty => false
  | .any _ => false
  | .character .. => false
  | .border _ => false
  | .oneOf .. => false
  | .sequence parts => anyIsHard referred parts
  | .choice branches => anyIsHard referred branches
  | .group number body => referred.contains number || isHard referred body
  | .repetition body _ _ => isHard referred body
  | _ => true

def anyIsHard (referred : List Nat) : List Extended → Bool
  | [] => false
  | part :: rest => isHard referred part || anyIsHard referred rest

end

mutual

/-- The least number of characters that a pattern matches. -/
def leastSize : Extended → Nat
  | .any _ => 1
  | .character .. => 1
  | .oneOf .. => 1
  | .sequence parts => sizeOfAll parts
  | .choice branches => leastOfAll branches
  | .group _ body => leastSize body
  | .repetition body least _ => leastSize body * least
  | .atomic body => leastSize body
  | .conditional condition yes no => leastSize condition + min (leastSize yes) (leastSize no)
  | _ => 0

def sizeOfAll : List Extended → Nat
  | [] => 0
  | part :: rest => leastSize part + sizeOfAll rest

def leastOfAll : List Extended → Nat
  | [] => 0
  | [branch] => leastSize branch
  | branch :: rest => min (leastSize branch) (leastOfAll rest)

end

mutual

/-- Whether all matches of a pattern surely have the same number of characters. -/
def isFixed : Extended → Bool
  | .sequence parts => areFixed parts
  | .choice branches => areFixed branches && haveSize (leastOfAll branches) branches
  | .group _ body => isFixed body
  | .repetition body least most => isFixed body && most == some least
  | .reference _ => false
  | .atomic body => isFixed body
  | .conditional condition yes no =>
    isFixed condition && isFixed yes && isFixed no &&
      leastSize condition + leastSize yes == leastSize no
  | _ => true

def areFixed : List Extended → Bool
  | [] => true
  | part :: rest => isFixed part && areFixed rest

def haveSize (size : Nat) : List Extended → Bool
  | [] => true
  | branch :: rest => leastSize branch == size && haveSize size rest

end

def isLiteral : Extended → Bool
  | .character _ caseless => !caseless
  | _ => false

def canDelegate (parts : List Extended) : Bool :=
  parts.all isLiteral || Plain.canMatch (parts.flatMap (spelled 1))

/-- Whether a matcher can be built for a sequence, given whether one can be built for each part by
itself. What is easy and of fixed size at the start is left to one automaton, and so is what is easy
at the end. At the end of a pattern without hard surroundings it need not be of fixed size. -/
def canJoin (referred : List Nat) (hard : Bool) (parts : List (Extended × Bool)) : Bool :=
  let isEasy (part : Extended × Bool) : Bool := !part.1.isHard referred
  let start := parts.takeWhile fun part => part.1.isFixed && isEasy part
  let rest := parts.drop start.length
  let ending := rest.reverse.takeWhile fun part => isEasy part && (!hard || part.1.isFixed)
  let middle := rest.take (rest.length - ending.length)
  let delegates (parts : List (Extended × Bool)) : Bool :=
    parts.isEmpty || canDelegate (parts.map Prod.fst)
  delegates start && middle.all Prod.snd && delegates ending.reverse

mutual

/-- Whether a matcher can be built for a pattern, within hard surroundings or by itself. What is
easy by itself is left to an automaton. -/
def canMatch (referred : List Nat) (hard : Bool) : Extended → Bool
  | .oneOf spelling caseless => canDelegate [.oneOf spelling caseless]
  | .sequence parts =>
    if hard || anyIsHard referred parts then
      canJoin referred hard (parts.zip (verdicts referred true parts))
    else canDelegate [.sequence parts]
  | .choice branches =>
    if hard || anyIsHard referred branches then (verdicts referred hard branches).all id
    else canDelegate [.choice branches]
  | .group number body =>
    if hard || (Extended.group number body).isHard referred then canMatch referred hard body
    else canDelegate [.group number body]
  | .repetition body least most =>
    if hard || body.isHard referred then
      canMatch referred (hard || body.isHard referred && (least != 0 || most != some 1)) body
    else canDelegate [.repetition body least most]
  | .look behind body =>
    match body with
    | .choice branches =>
      if behind && !(Extended.choice branches).isFixed then
        areFixed branches && (verdicts referred false branches).all id
      else canMatch referred false (.choice branches)
    | body => (!behind || body.isFixed) && canMatch referred false body
  | .atomic body => canMatch referred false body
  | .conditional condition yes no =>
    canMatch referred hard condition && canMatch referred hard yes && canMatch referred hard no
  | _ => true

def verdicts (referred : List Nat) (hard : Bool) : List Extended → List Bool
  | [] => []
  | part :: rest => canMatch referred hard part :: verdicts referred hard rest

end

/-- Whether a matcher can be built for a whole pattern. One without hard parts is an automaton. -/
def hasMatcher (referred : List Nat) (pattern : Extended) : Bool :=
  if pattern.isHard referred then canMatch referred true pattern
  else Plain.canMatch (pattern.spelled 0)

end Extended

end SchemaCatalog.Pattern
