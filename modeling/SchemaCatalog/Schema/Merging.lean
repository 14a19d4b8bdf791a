import SchemaCatalog.Schema.Basic

namespace SchemaCatalog

/-- A table filled with the entries whose keys it lacks. -/
def fillTable {α : Type} (own source : Option (Entries α)) : Option (Entries α) :=
  match source with
  | none => own
  | some new => some (Entries.addMissing (own.getD []) new)

def overwriteTable {α : Type} (own source : Option (Entries α)) : Option (Entries α) :=
  match source with
  | none => own
  | some new => some (Entries.putAll (own.getD []) new)

/-- Appends the names that are not listed yet. -/
def appendNew (own new : List String) : List String :=
  new.foldl (fun acc name => if acc.contains name then acc else acc ++ [name]) own

/-- The ordered union of two `required` lists. -/
def uniteRequired (own source : Option (List String)) : Option (List String) :=
  match source with
  | none => own
  | some new => some (appendNew (own.getD []) new)

/-- Keywords that are there, else those of `source`. -/
def Keywords.fillAbsent (own source : Keywords) : Keywords where
  id := own.id.or source.id
  reference := own.reference.or source.reference
  title := own.title.or source.title
  description := own.description.or source.description
  format := own.format.or source.format
  pattern := own.pattern.or source.pattern
  type := own.type.or source.type
  required := uniteRequired own.required source.required
  enumeration := own.enumeration.or source.enumeration
  defaultValue := own.defaultValue.or source.defaultValue
  minimum := own.minimum.or source.minimum
  maximum := own.maximum.or source.maximum
  exclusiveMinimum := own.exclusiveMinimum.or source.exclusiveMinimum
  exclusiveMaximum := own.exclusiveMaximum.or source.exclusiveMaximum
  multipleOf := own.multipleOf.or source.multipleOf
  minLength := own.minLength.or source.minLength
  maxLength := own.maxLength.or source.maxLength
  minItems := own.minItems.or source.minItems
  maxItems := own.maxItems.or source.maxItems
  uniqueItems := own.uniqueItems.or source.uniqueItems
  minProperties := own.minProperties.or source.minProperties
  maxProperties := own.maxProperties.or source.maxProperties

namespace Schema

/-- Adds every keyword of `source` that is absent here. -/
def fillAbsent (own source : Schema) : Schema where
  keywords := own.keywords.fillAbsent source.keywords
  properties := fillTable own.properties source.properties
  patternProperties := fillTable own.patternProperties source.patternProperties
  definitions := fillTable own.definitions source.definitions
  items := own.items.or source.items
  additionalProperties := own.additionalProperties.or source.additionalProperties
  allOf := own.allOf.or source.allOf
  anyOf := own.anyOf.or source.anyOf
  oneOf := own.oneOf.or source.oneOf
  not := own.not.or source.not

/-- Takes every keyword that `source` sets. `required` still lists the names here first. -/
def overwriteFrom (own source : Schema) : Schema :=
  let merged := source.fillAbsent own
  { merged with
    keywords :=
      { merged.keywords with
        required := uniteRequired own.keywords.required source.keywords.required }
    properties := overwriteTable own.properties source.properties
    patternProperties := overwriteTable own.patternProperties source.patternProperties
    definitions := overwriteTable own.definitions source.definitions }

end Schema

end SchemaCatalog
