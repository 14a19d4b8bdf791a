import SchemaCatalog.MetaSchema.Standard.Basic

namespace SchemaCatalog.MetaSchema.Standard

def whole : Json := refTo "#"

def definition (name : String) : Json := refTo ("#/definitions/" ++ name)

def defaultZero (name : String) : Json :=
  .object [("allOf", .array [definition name, .object [("default", .nat 0)]])]

def dependencies : Json := tableOf (either [whole, definition "stringArray"])

def limits (plain defaulted : String) : Entries Json :=
  each ["maxLength", "maxItems", "maxProperties"] (definition plain) ++
    each ["minLength", "minItems", "minProperties"] (definition defaulted)

def draft4 : Json :=
  let name := "http://json-schema.org/draft-04/schema#"
  let schemaOrFlag := withDefault (either [typed "boolean", whole]) blank
  .object [
    ("id", .string name),
    ("$schema", .string name),
    ("description", .string "Core schema meta-schema"),
    ("definitions", .object [
      ("schemaArray", schemaArray whole),
      ("positiveInteger", naturalNumber),
      ("positiveIntegerDefault0", defaultZero "positiveInteger"),
      ("simpleTypes", simpleTypes),
      ("stringArray",
        along (listOf (typed "string")) [("minItems", .nat 1), ("uniqueItems", .bool true)])]),
    ("type", .string "object"),
    ("properties", .object (
      each ["id", "$schema", "title", "description"] (typed "string") ++ [
      ("default", blank),
      ("multipleOf", .object [("type", .string "number"), ("minimum", .nat 0),
        ("exclusiveMinimum", .bool true)])] ++
      each ["maximum", "minimum"] (typed "number") ++
      each ["exclusiveMaximum", "exclusiveMinimum"] flag ++
      limits "positiveInteger" "positiveIntegerDefault0" ++ [
      ("pattern", formed "regex"),
      ("additionalItems", schemaOrFlag),
      ("items", withDefault (either [whole, definition "schemaArray"]) blank),
      ("uniqueItems", flag),
      ("required", definition "stringArray"),
      ("additionalProperties", schemaOrFlag)] ++
      each ["definitions", "properties", "patternProperties"]
        (withDefault (tableOf whole) blank) ++ [
      ("dependencies", dependencies),
      ("enum", typed "array"),
      ("type", typeNames (definition "simpleTypes")),
      ("format", typed "string")] ++
      each ["allOf", "anyOf", "oneOf"] (definition "schemaArray") ++ [
      ("not", whole)])),
    ("dependencies", .object [
      ("exclusiveMaximum", .strings ["maximum"]),
      ("exclusiveMinimum", .strings ["minimum"])]),
    ("default", blank)]

/-- The definitions of drafts 6 and 7. -/
def definitions : Json :=
  .object [
    ("schemaArray", schemaArray whole),
    ("nonNegativeInteger", naturalNumber),
    ("nonNegativeIntegerDefault0", defaultZero "nonNegativeInteger"),
    ("simpleTypes", simpleTypes),
    ("stringArray", stringArray)]

/-- The keywords of both draft 6 and draft 7, given the schema for any value. -/
def sharedKeywords (any : Json) : Entries Json :=
  each ["$id", "$ref"] (formed "uri-reference") ++ [
  ("$schema", formed "uri")] ++
  each ["title", "description"] (typed "string") ++ [
  ("default", any),
  ("examples", listOf any),
  ("multipleOf", divisor)] ++
  each ["maximum", "exclusiveMaximum", "minimum", "exclusiveMinimum"] (typed "number") ++
  limits "nonNegativeInteger" "nonNegativeIntegerDefault0" ++ [
  ("pattern", formed "regex"),
  ("additionalItems", whole),
  ("items", withDefault (either [whole, definition "schemaArray"]) any),
  ("uniqueItems", flag),
  ("contains", whole),
  ("required", definition "stringArray"),
  ("additionalProperties", whole)] ++
  each ["definitions", "properties"] (withDefault (tableOf whole) blank) ++ [
  ("patternProperties", patternTable whole),
  ("dependencies", dependencies),
  ("propertyNames", whole),
  ("const", any),
  ("type", typeNames (definition "simpleTypes")),
  ("format", typed "string")] ++
  each ["allOf", "anyOf", "oneOf"] (definition "schemaArray") ++ [
  ("not", whole)]

def draft6 : Json :=
  let name := "http://json-schema.org/draft-06/schema#"
  .object [
    ("$schema", .string name),
    ("$id", .string name),
    ("title", .string "Core schema meta-schema"),
    ("definitions", definitions),
    ("type", schemaTypes),
    ("properties", .object (sharedKeywords blank ++ [("enum", typed "array")])),
    ("default", blank)]

def draft7 : Json :=
  let name := "http://json-schema.org/draft-07/schema#"
  .object [
    ("$schema", .string name),
    ("$id", .string name),
    ("title", .string "Core schema meta-schema"),
    ("definitions", definitions),
    ("type", schemaTypes),
    ("properties", .object (
      sharedKeywords (.bool true) ++
      each ["$comment", "contentMediaType", "contentEncoding"] (typed "string") ++
      each ["readOnly", "writeOnly"] flag ++
      each ["if", "then", "else"] whole ++ [
      ("enum", listOf (.bool true))])),
    ("default", .bool true)]

end SchemaCatalog.MetaSchema.Standard
