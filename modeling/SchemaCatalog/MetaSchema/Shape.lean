import SchemaCatalog.MetaSchema.Address
import SchemaCatalog.MetaSchema.Draft
import SchemaCatalog.MetaSchema.Value
import SchemaCatalog.Pattern.Meaning

namespace SchemaCatalog.MetaSchema

/-- What the value of a keyword may be. -/
inductive Shape where
  | anything
  | text
  | pattern
  | reference
  /-- A reference with at most an empty fragment. -/
  | identifier
  | anchor
  | flag
  | list
  | number
  | positiveNumber
  | count
  /-- A type name, or several different ones. -/
  | types
  | names
  | someNames
  | nameTable
  | flagTable
  | schema
  | schemaOrFlag
  | schemas
  | schemaOrSchemas
  | schemaOrNames
  | schemaTable
  | patternTable
  | dependencyTable
deriving DecidableEq, Repr

namespace Shape

/-- Keywords that mean the same in all drafts. -/
def common : Entries Shape :=
  [("title", .text), ("description", .text), ("pattern", .pattern), ("uniqueItems", .flag),
    ("multipleOf", .positiveNumber), ("maximum", .number), ("minimum", .number),
    ("maxLength", .count), ("minLength", .count), ("maxItems", .count), ("minItems", .count),
    ("maxProperties", .count), ("minProperties", .count), ("type", .types), ("$schema", .text),
    ("definitions", .schemaTable), ("properties", .schemaTable),
    ("patternProperties", .patternTable), ("dependencies", .dependencyTable), ("format", .text),
    ("allOf", .schemas), ("anyOf", .schemas), ("oneOf", .schemas), ("not", .schema),
    ("enum", .list)]

def inDraft4 : Entries Shape :=
  [("id", .text), ("exclusiveMaximum", .flag), ("exclusiveMinimum", .flag),
    ("additionalItems", .schemaOrFlag), ("additionalProperties", .schemaOrFlag),
    ("items", .schemaOrSchemas), ("required", .someNames)]

def sinceDraft6 : Entries Shape :=
  [("exclusiveMaximum", .number), ("exclusiveMinimum", .number), ("required", .names),
    ("additionalProperties", .schema), ("contains", .schema), ("propertyNames", .schema),
    ("$ref", .reference), ("examples", .list)]

def sinceDraft7 : Entries Shape :=
  [("$comment", .text), ("readOnly", .flag), ("writeOnly", .flag), ("if", .schema),
    ("then", .schema), ("else", .schema), ("contentMediaType", .text), ("contentEncoding", .text)]

def sinceDraft2019 : Entries Shape :=
  [("$id", .identifier), ("$anchor", .anchor), ("$vocabulary", .flagTable), ("$defs", .schemaTable),
    ("dependentSchemas", .schemaTable), ("dependentRequired", .nameTable),
    ("unevaluatedItems", .schema), ("unevaluatedProperties", .schema), ("maxContains", .count),
    ("minContains", .count), ("deprecated", .flag), ("contentSchema", .schema)]

def inDraft2020 : Entries Shape :=
  [("items", .schema), ("prefixItems", .schemas), ("$dynamicRef", .reference),
    ("$dynamicAnchor", .anchor), ("$recursiveRef", .reference), ("$recursiveAnchor", .anchor)]

def mayBeSchema (shape : Shape) : Bool :=
  [.schema, .schemaOrFlag, .schemaOrNames, .schemaOrSchemas].contains shape

def mayBeSchemas (shape : Shape) : Bool := [.schemas, .schemaOrSchemas].contains shape

/-- The shape of the entries of a table of schemas. -/
def entryShape? : Shape → Option Shape
  | .schemaTable => some .schema
  | .patternTable => some .schema
  | .dependencyTable => some .schemaOrNames
  | _ => none

/-- The keywords of a draft with their shapes; of several for one keyword the first counts. -/
def table : Draft → Entries Shape
  | .draft4 => inDraft4 ++ common
  | .draft6 =>
    [("$id", .reference), ("items", .schemaOrSchemas), ("additionalItems", .schema)] ++
      sinceDraft6 ++ common
  | .draft7 =>
    [("$id", .reference), ("items", .schemaOrSchemas), ("additionalItems", .schema)] ++
      sinceDraft7 ++ sinceDraft6 ++ common
  | .draft2019 =>
    [("items", .schemaOrSchemas), ("additionalItems", .schema), ("$recursiveRef", .reference),
      ("$recursiveAnchor", .flag)] ++ sinceDraft2019 ++ sinceDraft7 ++ sinceDraft6 ++ common
  | .draft2020 => inDraft2020 ++ sinceDraft2019 ++ sinceDraft7 ++ sinceDraft6 ++ common

/-- The shape of the value of a keyword. Other keywords may have any value. -/
def ofKeyword (draft : Draft) (keyword : String) : Shape :=
  ((table draft).lookup keyword).getD .anything

end Shape

/-- Whether a number is whole. From draft 6 on it may be written with a fraction of zero. -/
def isWhole (draft : Draft) : Numeral → Bool
  | .integer _ => true
  | .float bits =>
    let x := Float.ofBits bits
    Draft.since .draft6 draft && x.floor == x

/-- Up to draft 7, texts of a given form are checked everywhere, later only where they are used. -/
def checksForms (draft : Draft) : Bool := draft.referenceHides

/-- Whether a text ends in its only `#`, if it has one. -/
def isIdentifier (text : String) : Bool := text.toList.dropLast.all (· != '#')

def isAnchor (draft : Draft) (text : String) : Bool :=
  let marks := if draft == .draft2020 then ['-', '_', '.'] else ['-', '_', '.', ':']
  match text.toList with
  | [] => false
  | c :: rest =>
    (c.isAlpha || (draft == .draft2020 && c == '_')) &&
      rest.all fun c => c.isAlphanum || marks.contains c

/-- Whether a value that is neither an object nor an array of schemas has a shape. From draft 6 on
there are two schemas that are no objects: the one that accepts anything, and the one that accepts
nothing. -/
def fitsPlain (draft : Draft) : Shape → Json → Bool
  | .anything, _ => true
  | .text, .string _ => true
  | .pattern, .string text => !checksForms draft || Pattern.isPattern text
  | .reference, .string text => !checksForms draft || (Address.parse? text).isSome
  | .identifier, .string text => isIdentifier text
  | .anchor, .string text => isAnchor draft text
  | .flag, .bool _ => true
  | .list, .array _ => true
  | .number, .number _ => true
  | .positiveNumber, .number n => 0 < n.toFloat
  | .count, .number n => isWhole draft n && 0 ≤ n.toFloat
  | .types, .string name => typeNames.contains name
  | .types, .array items => !items.isEmpty && items.all isTypeName && areNames items
  | .names, value => isNames value
  | .someNames, .array items => !items.isEmpty && areNames items
  | .nameTable, .object members => members.all fun (_, value) => isNames value
  | .flagTable, .object members => members.all fun (_, value) => value.bool?.isSome
  | .schemaOrFlag, .bool _ => true
  | .schemaOrNames, .array items =>
    areNames items && (Draft.since .draft6 draft || !items.isEmpty)
  | shape, .bool _ => shape.mayBeSchema && Draft.since .draft6 draft
  | _, _ => false

def keysFit (draft : Draft) (shape : Shape) (members : Entries Json) : Bool :=
  shape != .patternTable || !checksForms draft || draft == .draft4 ||
    members.all fun (key, _) => Pattern.isPattern key

def boundsAgree (draft : Draft) (members : Entries Json) : Bool :=
  draft != .draft4 ||
    ((members.has "maximum" || !members.has "exclusiveMaximum") &&
      (members.has "minimum" || !members.has "exclusiveMinimum"))

mutual

def fits (draft : Draft) : Shape → Json → Bool
  | shape, .object members =>
    if shape.mayBeSchema then boundsAgree draft members && fitKeywords draft members
    else
      match shape.entryShape? with
      | some entry => keysFit draft shape members && fitTable draft entry members
      | none => fitsPlain draft shape (.object members)
  | shape, .array items =>
    if shape.mayBeSchemas then !items.isEmpty && fitAll draft items
    else fitsPlain draft shape (.array items)
  | shape, value => fitsPlain draft shape value

def fitKeywords (draft : Draft) : List (String × Json) → Bool
  | [] => true
  | (keyword, value) :: rest =>
    fits draft (Shape.ofKeyword draft keyword) value && fitKeywords draft rest

def fitAll (draft : Draft) : List Json → Bool
  | [] => true
  | item :: rest => fits draft .schema item && fitAll draft rest

def fitTable (draft : Draft) (shape : Shape) : List (String × Json) → Bool
  | [] => true
  | (_, value) :: rest => fits draft shape value && fitTable draft shape rest

end

def isSchema (draft : Draft) (value : Json) : Bool := fits draft .schema value

end SchemaCatalog.MetaSchema
