import SchemaCatalog.MetaSchema.Shape

namespace SchemaCatalog.MetaSchema

/-- A schema, the draft that it follows and the address that references in it start from. -/
structure Site where
  base : Address
  draft : Draft
  schema : Json
deriving Inhabited

/-- The address that a schema gives itself, as it is spelled. -/
def ownAddress? (draft : Draft) (schema : Json) : Option String := do
  if draft.referenceHides && (schema.member? "$ref").isSome then failure
  let id ← schema.stringMember? draft.idKeyword
  if draft.referenceHides && id.toList.head? == some '#' then failure
  return Draft.trimHashes id

/-- The address that references in a schema start from, given that for what is around it. Nothing if
the schema gives itself an address that means nothing there. -/
def baseWithin? (draft : Draft) (base : Address) (schema : Json) : Option Address :=
  match ownAddress? draft schema with
  | some id => base.resolve? id
  | none => some base

/-- The names by which a schema can be referred to as an anchor. -/
def anchors (draft : Draft) (schema : Json) : List String :=
  match draft with
  | .draft2020 => ["$anchor", "$dynamicAnchor"].filterMap schema.stringMember?
  | .draft2019 => (schema.stringMember? "$anchor").toList
  | draft =>
    match (schema.stringMember? draft.idKeyword).map String.toList with
    | some ('#' :: name) => [String.ofList name]
    | _ => []

/-- Whether the schemas under a keyword belong to the schema around it. -/
def holdsSchemas (draft : Draft) (keyword : String) : Bool :=
  keyword != "dependencies" || draft.referenceHides

/-- The schemas directly under a keyword whose value has a shape. -/
def schemasUnder (shape : Shape) (value : Json) : List Json :=
  match value with
  | .object members =>
    if shape.mayBeSchema then [value]
    else if shape.entryShape?.isSome then members.map Prod.snd
    else []
  | .array items => if shape.mayBeSchemas then items else []
  | _ => []

/-- The schemas directly below a schema, as far as they are objects. -/
def schemasBelow (draft : Draft) (schema : Json) : List Json :=
  let under (member : String × Json) : List Json :=
    if holdsSchemas draft member.1 then schemasUnder (Shape.ofKeyword draft member.1) member.2
    else []
  ((schema.members?.getD []).flatMap under).filter fun value => value.members?.isSome

/-- Whether a path leads from schema to schema, given the value at its end. A step of it is a key,
or nothing for a position in an array. -/
def leadsToSchema (draft : Draft) (value : Json) : List (Option String) → Bool
  | [] => true
  | none :: rest => leadsToSchema draft value rest
  | some key :: rest =>
    let shape := Shape.ofKeyword draft key
    if (key == "items" || key == "dependencies") && shape != .schema && value.members?.isSome then
      holdsSchemas draft key
    else if shape.entryShape?.isSome || shape == .schemas then
      match rest with
      | [] => false
      | _ :: rest => leadsToSchema draft value rest
    else shape.mayBeSchema && leadsToSchema draft value rest

namespace Site

/-- A schema within another. Nothing if its draft is unknown or its address means nothing. -/
def enter? (outer : Site) (schema : Json) : Option Site := do
  let draft ← outer.draft.within? schema
  return ⟨← baseWithin? draft outer.base schema, draft, schema⟩

def below? (site : Site) : Option (List Site) :=
  (schemasBelow site.draft site.schema).mapM site.enter?

/-- The schemas below some at most `fuel` deep, outer ones first, and those themselves before. -/
def levels? : Nat → List Site → Option (List Site)
  | 0, sites => some sites
  | _ + 1, [] => some []
  | fuel + 1, sites => do
    let below ← sites.mapM below?
    return sites ++ (← levels? fuel below.flatten)

end Site

end SchemaCatalog.MetaSchema
