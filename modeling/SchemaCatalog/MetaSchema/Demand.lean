import SchemaCatalog.MetaSchema.Draft
import SchemaCatalog.MetaSchema.Value
import SchemaCatalog.Pattern.Meaning

namespace SchemaCatalog.MetaSchema

/-- What else has to be usable. -/
inductive Need where
  | schema (value : Json)
  | reference (text : String)
deriving Inhabited

/-- What a keyword demands of its value. -/
inductive Demand where
  | reference
  | schema
  | schemas
  | schemaOrSchemas
  /-- A schema for what an array of schemas does not cover. -/
  | schemaBeyondItems
  | schemaOfNames
  | schemaTable
  | patternTable
  /-- A schema that counts only with one for the case that it holds, or does not. -/
  | condition
  | consequence
  /-- A schema for a number of items, which has limits. -/
  | schemaWithLimits
  /-- A schema for all that no other keyword covers. -/
  | schemaBeyond
  | dependencyTable
  | nameTable
  | types
  | list
  | names
  | pattern
  | text
  | flag
  | number
  | count
deriving DecidableEq, Repr

namespace Demand

/-- Keywords that demand the same in all drafts. -/
def common : Entries Demand :=
  [("$ref", .reference), ("additionalProperties", .schema), ("allOf", .schemas),
    ("anyOf", .schemas), ("oneOf", .schemas), ("not", .schema), ("properties", .schemaTable),
    ("patternProperties", .patternTable), ("dependencies", .dependencyTable), ("enum", .list),
    ("type", .types), ("required", .names), ("pattern", .pattern), ("uniqueItems", .flag),
    ("multipleOf", .number), ("maximum", .number), ("minimum", .number), ("maxLength", .count),
    ("minLength", .count), ("maxItems", .count), ("minItems", .count), ("maxProperties", .count),
    ("minProperties", .count)]

def untilDraft7 : Entries Demand := [("format", .text)]

def untilDraft2019 : Entries Demand :=
  [("items", .schemaOrSchemas), ("additionalItems", .schemaBeyondItems)]

def sinceDraft6 : Entries Demand :=
  [("contains", .schema), ("propertyNames", .schemaOfNames), ("exclusiveMaximum", .number),
    ("exclusiveMinimum", .number)]

def inDrafts6And7 : Entries Demand := [("contentMediaType", .text), ("contentEncoding", .text)]

def sinceDraft7 : Entries Demand :=
  [("if", .condition), ("then", .consequence), ("else", .consequence)]

def sinceDraft2019 : Entries Demand :=
  [("contains", .schemaWithLimits), ("dependentRequired", .nameTable),
    ("dependentSchemas", .schemaTable), ("unevaluatedItems", .schemaBeyond),
    ("unevaluatedProperties", .schemaBeyond)]

/-- The keywords of a draft with what they demand; of several for one keyword the first counts. -/
def table : Draft → Entries Demand
  | .draft4 => untilDraft7 ++ untilDraft2019 ++ common
  | .draft6 => inDrafts6And7 ++ sinceDraft6 ++ untilDraft7 ++ untilDraft2019 ++ common
  | .draft7 =>
    inDrafts6And7 ++ sinceDraft7 ++ sinceDraft6 ++ untilDraft7 ++ untilDraft2019 ++ common
  | .draft2019 =>
    [("$recursiveRef", .reference)] ++ sinceDraft2019 ++ sinceDraft7 ++ sinceDraft6 ++
      untilDraft2019 ++ common
  | .draft2020 =>
    [("$dynamicRef", .reference), ("items", .schema), ("prefixItems", .schemas)] ++
      sinceDraft2019 ++ sinceDraft7 ++ sinceDraft6 ++ common

/-- Whether a number can be a limit. In draft 4 it is written as a natural number; later any whole
number will do. -/
def isLimit (draft : Draft) : Numeral → Bool
  | .integer n => draft != .draft4 || 0 ≤ n
  | .float bits =>
    let x := Float.ofBits bits
    draft != .draft4 && x.floor == x

def hasLimit (draft : Draft) (members : Entries Json) (keyword : String) : Bool :=
  match members.lookup keyword with
  | none => true
  | some (.number n) => isLimit draft n
  | some _ => false

def schemasAt (members : Entries Json) (keywords : List String) : List Need :=
  (keywords.filterMap fun keyword => members.lookup keyword).map .schema

def dependencyNeeds? : Json → Option (List Need)
  | .array items => if items.all fun item => item.string?.isSome then some [] else none
  | value => some [.schema value]

/-- What a keyword needs, given all members of its schema. Nothing if its value is not what the
keyword demands. -/
def needs? (draft : Draft) (members : Entries Json) : Demand → Json → Option (List Need)
  | .reference, .string spelling => some [.reference spelling]
  | .schema, value => some [.schema value]
  | .schemas, .array items => some (items.map .schema)
  | .schemaOrSchemas, .array items => some (items.map .schema)
  | .schemaOrSchemas, value => some [.schema value]
  | .schemaBeyondItems, value =>
    let limited := ((members.lookup "items").bind Json.items?).isSome
    some (if limited && value.members?.isSome then [.schema value] else [])
  | .schemaOfNames, value => some (if value.members?.isSome then [.schema value] else [])
  | .schemaTable, .object entries => some (entries.map fun entry => .schema entry.2)
  | .patternTable, .object entries =>
    if entries.all fun entry => Pattern.canMatch entry.1 then
      some (entries.map fun entry => .schema entry.2)
    else none
  | .condition, value =>
    some (if members.has "then" || members.has "else" then [.schema value] else [])
  | .consequence, value => some (if members.has "if" then [.schema value] else [])
  | .schemaWithLimits, value =>
    if hasLimit draft members "minContains" && hasLimit draft members "maxContains" then
      some [.schema value]
    else none
  | .schemaBeyond, value => some (.schema value :: schemasAt members ["if"])
  | .dependencyTable, .object entries =>
    (entries.mapM fun entry => dependencyNeeds? entry.2).map List.flatten
  | .nameTable, .object entries =>
    if entries.all fun entry => isNames entry.2 then some [] else none
  | .types, .array items => if items.all isTypeName then some [] else none
  | .types, value => if isTypeName value then some [] else none
  | .list, .array _ => some []
  | .names, .array items => if items.all fun item => item.string?.isSome then some [] else none
  | .pattern, .string spelling => if Pattern.canMatch spelling then some [] else none
  | .text, .string _ => some []
  | .flag, .bool _ => some []
  | .number, .number _ => some []
  | .count, .number n => if isLimit draft n then some [] else none
  | _, _ => none

end Demand

/-- What a schema needs. Of one whose draft has vocabularies that are not in use only references
count. Nothing if a keyword has a value that it cannot have, or if the value is no schema. -/
def needs? (draft : Draft) (inUse : Bool) : Json → Option (List Need)
  | .bool _ => some []
  | .object members =>
    let ofMember (member : String × Json) : Option (List Need) :=
      match (Demand.table draft).lookup member.1 with
      | none => some []
      | some demand =>
        if inUse || draft.referenceHides || demand == .reference then
          demand.needs? draft members member.2
        else some []
    match members.lookup "$ref" with
    | some value =>
      if draft.referenceHides then Demand.reference.needs? draft members value
      else (members.mapM ofMember).map List.flatten
    | none => (members.mapM ofMember).map List.flatten
  | _ => none

end SchemaCatalog.MetaSchema
