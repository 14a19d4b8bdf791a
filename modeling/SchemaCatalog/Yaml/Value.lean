import SchemaCatalog.Json.Basic
import SchemaCatalog.Yaml.Node

namespace SchemaCatalog.Yaml

def isNull (text : String) : Bool := ["null", "Null", "NULL", "~"].contains text

def truth? (text : String) : Option Bool :=
  if ["true", "True", "TRUE"].contains text then some true
  else if ["false", "False", "FALSE"].contains text then some false
  else none

/-- The number that digits of a base spell. -/
def digitsValue? (base : Nat) (digits : List Char) : Option Nat := do
  if digits.isEmpty then failure
  digits.foldlM (fun value c => do
    let digit ← Json.hexDigit? c
    if digit < base then return base * value + digit else failure) 0

def isPadded (digits : List Char) : Bool :=
  2 ≤ digits.length && digits.head? == some '0' && digits.all Char.isDigit

/-- The number that a spelling without a sign stands for. -/
def natural? (text : List Char) : Option Nat :=
  match text with
  | '0' :: 'x' :: digits => digitsValue? 16 digits
  | '0' :: 'o' :: digits => digitsValue? 8 digits
  | '0' :: 'b' :: digits => digitsValue? 2 digits
  | digits => if isPadded digits then none else digitsValue? 10 digits

def integer? (text : List Char) : Option Int :=
  match text with
  | '-' :: rest => (natural? rest).map fun n => -(n : Int)
  | '+' :: rest => (natural? rest).map Int.ofNat
  | rest => (natural? rest).map Int.ofNat

def exponent? : List Char → Option Int
  | '-' :: digits => (digitsValue? 10 digits).map fun n => -(n : Int)
  | '+' :: digits => (digitsValue? 10 digits).map Int.ofNat
  | digits => (digitsValue? 10 digits).map Int.ofNat

/-- A decimal number without a sign as significand and power of ten. -/
def decimal? (text : List Char) : Option (Nat × Int) := do
  let isMark (c : Char) : Bool := c == 'e' || c == 'E'
  let body := text.takeWhile (!isMark ·)
  let whole := body.takeWhile (· != '.')
  let fraction := body.drop (whole.length + 1)
  let significand ← digitsValue? 10 (whole ++ fraction)
  let exponent ←
    if body.length == text.length then pure 0 else exponent? (text.drop (body.length + 1))
  return (significand, exponent - fraction.length)

/-- The binary64 nearest to a decimal, or nothing beyond its range. -/
def nearestFloat? (significand : Nat) (exponent : Int) : Option Float :=
  let magnitude := exponent + (Nat.toDigits 10 significand).length
  if significand == 0 || magnitude < -400 then some 0
  else if 400 < magnitude then none
  else
    let x := Float.ofScientific significand (exponent < 0) exponent.natAbs
    if x.isInf then none else some x

/-- A number that is no integer: what a JSON document can say of it, so null for infinities. -/
def float? (text : List Char) : Option Json :=
  let (negative, rest) := match text with
    | '-' :: rest => (true, rest)
    | '+' :: rest => (false, rest)
    | rest => (false, rest)
  if [".inf", ".Inf", ".INF"].contains (String.ofList rest) then some .null
  else if [".nan", ".NaN", ".NAN"].contains (String.ofList text) then some .null
  else do
    let (significand, exponent) ← decimal? rest
    let x ← nearestFloat? significand exponent
    return .number (.float (if negative then -x else x).toBits)

/-- Integers up to 64 bits are numbers, and wider ones up to 128 bits are refused. Beyond, a
spelling does not count as an integer. -/
def integerValue? (text : String) : Option (Except Fault Json) :=
  match integer? text.toList with
  | none => none
  | some n =>
    if fits 64 n then some (.ok (.int n))
    else if fits 128 n then some (.error .numberOutOfRange)
    else none
where
  /-- Whether an integer fits in a number of bits, as a signed or an unsigned one. -/
  fits (bits : Nat) (n : Int) : Bool :=
    -(Nat.pow 2 (bits - 1) : Nat) ≤ n && n < (Nat.pow 2 bits : Nat)

/-- The value of a plain scalar without a tag. -/
def plainValue (text : String) : Except Fault Json :=
  if text.isEmpty || isNull text then .ok .null
  else
    match truth? text, integerValue? text with
    | some b, _ => .ok (.bool b)
    | none, some result => result
    | none, none =>
      let digits := match text.toList with
        | '-' :: rest => rest
        | '+' :: rest => rest
        | rest => rest
      if isPadded digits then .ok (.string text)
      else .ok ((float? text.toList).getD (.string text))

/-- The value of a scalar. Tags of the standard types decide how it is read. -/
def scalarValue (tag : Option String) (text : String) (plain : Bool) : Except Fault Json :=
  let orRefuse (value : Option Json) : Except Fault Json :=
    match value with
    | some value => .ok value
    | none => .error .badTaggedScalar
  match tag with
  | none => if plain then plainValue text else .ok (.string text)
  | some "tag:yaml.org,2002:bool" => orRefuse ((truth? text).map .bool)
  | some "tag:yaml.org,2002:int" => (integerValue? text).getD (.error .badTaggedScalar)
  | some "tag:yaml.org,2002:float" => orRefuse (float? text.toList)
  | some "tag:yaml.org,2002:null" => orRefuse (if isNull text then some .null else none)
  | some _ => .ok (.string text)

namespace Document

/-- The number of marks that spell a node: two for a collection, one for anything else. -/
def markCount (root : Option Node) : Nat :=
  match root with
  | none => 1
  | some node => count node
where
  count : Node → Nat
    | .alias _ => 1
    | .scalar .. => 1
    | .sequence _ items => 2 + countItems items
    | .mapping _ entries => 2 + countEntries entries
  countItems : List Node → Nat
    | [] => 0
    | item :: rest => count item + countItems rest
  countEntries : List (Node × Node) → Nat
    | [] => 0
    | (key, value) :: rest => count key + count value + countEntries rest

/-- A step that counts how often aliases were followed. -/
abbrev Counting := StateT Nat (Except Fault)

/-- The node that a node stands for. Aliases may be followed a hundred times for each mark of the
document. -/
def follow (document : Document) (node : Node) : Counting Node := do
  match node with
  | .alias number =>
    let followed := (← get) + 1
    set followed
    if 100 * markCount document.root < followed then throw .tooManyAliases
    match document.anchored.lookup number with
    | some node => return node
    | none => throw .tooDeep
  | node => return node

def checkTag (tag : Option String) : Counting Unit :=
  if tag.any fun tag => tag.toList.head? == some '!' then throw .unknownTag else pure ()

def keyText (document : Document) (node : Node) : Counting String := do
  match ← document.follow node with
  | .scalar _ text _ => return text
  | _ => throw .keyNotScalar

/-- The value of a node whose collections nest at most `depth` deep. -/
def value (document : Document) (depth : Nat) (node : Node) : Counting Json := do
  match ← document.follow node with
  | .alias _ => throw .tooDeep
  | .scalar tag text plain =>
    checkTag tag
    scalarValue tag text plain
  | .sequence tag items =>
    checkTag tag
    match depth with
    | 0 => throw .tooDeep
    | depth + 1 => return .array (← items.mapM (value document depth))
  | .mapping tag entries =>
    checkTag tag
    match depth with
    | 0 => throw .tooDeep
    | depth + 1 =>
      return .ofEntries (← entries.mapM fun (key, node) => do
        return (← document.keyText key, ← value document depth node))

def depthLimit : Nat := 128

def toJson (document : Document) : Except Fault Json :=
  match document.root with
  | none => .ok .null
  | some node => (document.value depthLimit node).run' 0

end Document

end SchemaCatalog.Yaml
