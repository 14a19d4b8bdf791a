import SchemaCatalog.Json.Fragment
import SchemaCatalog.MetaSchema.Site

namespace SchemaCatalog.MetaSchema

/-- Schemas by their addresses and by the names of anchors. Of several at one place the first
counts. -/
structure Library where
  documents : List Site := []
  anchored : List (String × Site) := []
deriving Inhabited

def height : Json → Nat
  | .array items => 1 + heightOfItems items
  | .object members => 1 + heightOfMembers members
  | _ => 1
where
  /-- How deep the deepest of some items nests. -/
  heightOfItems : List Json → Nat
    | [] => 0
    | item :: rest => max (height item) (heightOfItems rest)
  /-- How deep the deepest value of some members nests. -/
  heightOfMembers : List (String × Json) → Nat
    | [] => 0
    | (_, value) :: rest => max (height value) (heightOfMembers rest)

/-- How many values there are in a value, itself included. -/
def size : Json → Nat
  | .array items => 1 + sizeOfItems items
  | .object members => 1 + sizeOfMembers members
  | _ => 1
where
  /-- How many values there are in some items. -/
  sizeOfItems : List Json → Nat
    | [] => 0
    | item :: rest => size item + sizeOfItems rest
  /-- How many values there are in some members. -/
  sizeOfMembers : List (String × Json) → Nat
    | [] => 0
    | (_, value) :: rest => size value + sizeOfMembers rest

namespace Library

def rootSite? (draft : Draft) (root : Json) : Option (Site × Site) := do
  let address ← Address.unnamed.resolve? ((ownAddress? draft root).getD "")
  return (⟨address, draft, root⟩, ⟨← baseWithin? draft address root, draft, root⟩)

/-- The library with all schemas of a document, which come before those that are there. With it come
the schemas themselves, outer ones first. Nothing if one of them has an unknown draft or an address
that means nothing. -/
def add? (library : Library) (draft : Draft) (root : Json) : Option (Library × List Site) := do
  let (start, inner) ← rootSite? draft root
  let sites ← Site.levels? (height root) [inner]
  let named := sites.filter fun site => (ownAddress? site.draft site.schema).isSome
  let anchored := sites.flatMap fun site => (anchors site.draft site.schema).map (·, site)
  return ({ documents := named.reverse ++ start :: library.documents
            anchored := anchored.reverse ++ library.anchored }, sites)

def document? (library : Library) (address : Address) : Option Site :=
  library.documents.find? (·.base == address)

/-- The schema that a name is the anchor of in a document. The document may also be known under the
address that it gives itself. -/
def anchor? (library : Library) (document : Site) (name : String) : Option Site :=
  let at? (address : Address) : Option Site :=
    (library.anchored.find? fun entry => entry.1 == name && entry.2.base == address).map Prod.snd
  (at? document.base).or
    (((ownAddress? document.draft document.schema).bind Address.unnamed.resolve?).bind at?)

/-- One step of a path: the value below, and the key that leads to it, or nothing for a position. -/
def step? (value : Json) (part : String) : Option (Option String × Json) :=
  match value with
  | .array items => ((Json.position? part).bind (items[·]?)).map (none, ·)
  | .object members =>
    let key := Reference.unescape part
    (members.lookup key).map (some key, ·)
  | _ => none

/-- The schema at the end of a path. Addresses that schemas on the way give themselves count;
`trail` are the steps since the last of them. -/
def descend? (site : Site) (trail : List (Option String)) : List String → Option Site
  | [] => some site
  | part :: rest => do
    let (step, value) ← step? site.schema part
    let trail := trail ++ [step]
    let base ←
      if leadsToSchema site.draft value trail then baseWithin? site.draft site.base value
      else pure site.base
    descend? ⟨base, site.draft, value⟩ (if base == site.base then trail else []) rest

/-- The schema that a fragment of a document means: a path if it starts with a slash, an anchor
otherwise. -/
def fragment? (library : Library) (document : Site) (fragment : List Char) : Option Site :=
  match fragment with
  | [] => some document
  | '/' :: path => do
    descend? document [] (Text.splitString '/' (← Address.unescaped? path))
  | name => library.anchor? document (String.ofList name)

def cutAtHash (text : List Char) : List Char × List Char :=
  let after := text.reverse.takeWhile (· != '#')
  if after.length == text.length then (text, [])
  else (text.take (text.length - after.length - 1), after.reverse)

/-- The schema that the text of a reference means at an address. -/
def lookup? (library : Library) (base : Address) (text : String) : Option Site := do
  let (document, fragment) := cutAtHash text.toList
  let address ←
    if text.toList.head? == some '#' then pure base else base.resolve? (String.ofList document)
  library.fragment? (← library.document? address) fragment

/-- Whether the document that a reference means is at hand. References within a document and those
to meta-schemas are not looked at, nor those from names. -/
def knows (library : Library) (base : Address) (text : String) : Bool :=
  text.toList.head? == some '#' || Draft.isMetaAddress text || base.scheme == some "urn" ||
    ((base.resolve? text).bind fun address => library.document? address.document).isSome

def isComplete (library : Library) (sites : List Site) : Bool :=
  sites.all fun site =>
    (["$ref", "$schema"].filterMap site.schema.stringMember?).all (library.knows site.base)

end Library

end SchemaCatalog.MetaSchema
