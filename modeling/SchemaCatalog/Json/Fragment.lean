import SchemaCatalog.Error
import SchemaCatalog.Reference.Basic

namespace SchemaCatalog.Json

/-- The position that a key denotes in an array: decimal digits after an optional plus sign. -/
def position? (key : String) : Option Nat :=
  let digits := match key.toList with
    | '+' :: rest => rest
    | chars => chars
  if digits.isEmpty || !digits.all Char.isDigit then none
  else
    let n := digits.foldl (fun n d => n * 10 + (d.toNat - 48)) 0
    if n < Nat.pow 2 64 then some n else none

def child? (value : Json) (key : String) : Option Json :=
  match value with
  | .array items => (position? key).bind (items[·]?)
  | .object members => members.lookup key
  | _ => none

def descend? (value : Json) : List String → Option Json
  | [] => some value
  | key :: rest => (child? value key).bind (descend? · rest)

/-- The path of a fragment: leading hashes and slashes dropped, cut at slashes, escapes undone. -/
def fragmentPath (fragment : String) : List String :=
  match (fragment.toList.dropWhile (· == '#')).dropWhile (· == '/') with
  | [] => []
  | path => (Text.split '/' path).map fun part => String.ofList (Reference.unescapeChars part)

def navigate (document : Json) (fragment : String) : Outcome Json :=
  match document.descend? (fragmentPath fragment) with
  | some value => .ok value
  | none => .error (.unresolvedPointer fragment none)

def referenceText? (value : Json) : Option String := value.stringMember? "$ref"

mutual

/-- The `$ref`s in a value; that of an object comes before those in its members. -/
def references : Json → List String
  | .object members => (Json.object members).referenceText?.toList ++ memberReferences members
  | .array items => itemReferences items
  | _ => []

def itemReferences : List Json → List String
  | [] => []
  | item :: rest => references item ++ itemReferences rest

def memberReferences : List (String × Json) → List String
  | [] => []
  | (_, value) :: rest => references value ++ memberReferences rest

end

/-- The documents that a value refers to, each once, in order of first reference. -/
def referencedDocuments (value : Json) : List String :=
  ((value.references.map fun text => (Reference.parse text).document).filter
    fun document => !document.isEmpty).eraseDups

/-- Follows local references until a value without one. `chain` holds those followed so far. -/
def followFrom (document : Json) : Nat → List String → Json → Outcome Json
  | fuel, chain, value =>
    match value.referenceText? with
    | none => .ok value
    | some text =>
      let reference := Reference.parse text
      if !reference.isLocal then .error (.unknownDocument reference.document text)
      else if chain.contains text then .error (.cyclicReference (chain ++ [text]))
      else
        match fuel with
        | 0 => .error (.cyclicReference (chain ++ [text]))
        | fuel + 1 => do followFrom document fuel (chain ++ [text]) (← document.navigate text)

/-- Follows local references, each at most once: there are only finitely many in a document. -/
def follow (document value : Json) : Outcome Json :=
  followFrom document (document.references.length + 1) [] value

end SchemaCatalog.Json
