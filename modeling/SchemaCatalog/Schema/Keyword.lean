import SchemaCatalog.Schema.Basic

namespace SchemaCatalog

/-- A keyword that a schema node can declare. -/
inductive Keyword where
  | id
  | reference
  | title
  | description
  | format
  | pattern
  | type
  | properties
  | patternProperties
  | definitions
  | items
  | additionalProperties
  | allOf
  | anyOf
  | oneOf
  | not
  | required
  | enumeration
  | defaultValue
  | minimum
  | maximum
  | exclusiveMinimum
  | exclusiveMaximum
  | multipleOf
  | minLength
  | maxLength
  | minItems
  | maxItems
  | uniqueItems
  | minProperties
  | maxProperties
deriving DecidableEq, Repr

namespace Keyword

/-- All keywords, in written order. -/
def all : List Keyword :=
  [.id, .reference, .title, .description, .format, .pattern, .type, .properties,
    .patternProperties, .definitions, .items, .additionalProperties, .allOf, .anyOf, .oneOf, .not,
    .required, .enumeration, .defaultValue, .minimum, .maximum, .exclusiveMinimum,
    .exclusiveMaximum, .multipleOf, .minLength, .maxLength, .minItems, .maxItems, .uniqueItems,
    .minProperties, .maxProperties]

/-- The name a keyword is written under. -/
def name : Keyword → String
  | .id => "id"
  | .reference => "$ref"
  | .title => "title"
  | .description => "description"
  | .format => "format"
  | .pattern => "pattern"
  | .type => "type"
  | .properties => "properties"
  | .patternProperties => "patternProperties"
  | .definitions => "definitions"
  | .items => "items"
  | .additionalProperties => "additionalProperties"
  | .allOf => "allOf"
  | .anyOf => "anyOf"
  | .oneOf => "oneOf"
  | .not => "not"
  | .required => "required"
  | .enumeration => "enum"
  | .defaultValue => "default"
  | .minimum => "minimum"
  | .maximum => "maximum"
  | .exclusiveMinimum => "exclusiveMinimum"
  | .exclusiveMaximum => "exclusiveMaximum"
  | .multipleOf => "multipleOf"
  | .minLength => "minLength"
  | .maxLength => "maxLength"
  | .minItems => "minItems"
  | .maxItems => "maxItems"
  | .uniqueItems => "uniqueItems"
  | .minProperties => "minProperties"
  | .maxProperties => "maxProperties"

/-- The keyword read under a name. `$id` and `$defs` are second names. -/
def ofName? (text : String) : Option Keyword :=
  if text == "$id" then some .id
  else if text == "$defs" then some .definitions
  else all.find? (·.name == text)

end Keyword

end SchemaCatalog
