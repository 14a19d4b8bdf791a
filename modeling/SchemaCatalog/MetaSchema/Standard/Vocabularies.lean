import SchemaCatalog.MetaSchema.Standard.Basic

namespace SchemaCatalog.MetaSchema.Standard

/-- What sets the documents of a draft apart. -/
structure Edition where
  address : String
  /-- The keyword that marks a document as one that others may extend. -/
  mark : String × Json
  /-- The reference to the schemas of the draft, extended or not. -/
  self : Json

def edition2019 : Edition :=
  { address := "https://json-schema.org/draft/2019-09/"
    mark := ("$recursiveAnchor", .bool true)
    self := .object [("$recursiveRef", .string "#")] }

def edition2020 : Edition :=
  { address := "https://json-schema.org/draft/2020-12/"
    mark := ("$dynamicAnchor", .string "meta")
    self := .object [("$dynamicRef", .string "#meta")] }

def localDefinition (name : String) : Json := refTo ("#/$defs/" ++ name)

/-- A document of a draft, given the vocabularies that it needs, with its title. -/
def document (edition : Edition) (place title : String) (vocabularies : Entries Json)
    (members : Entries Json) : Json :=
  .object ([
    ("$schema", .string (edition.address ++ "schema")),
    ("$id", .string (edition.address ++ place)),
    ("$vocabulary",
      .object (vocabularies.map fun entry => (edition.address ++ "vocab/" ++ entry.1, entry.2))),
    edition.mark,
    ("title", .string title),
    ("type", schemaTypes)] ++ members)

def vocabulary (edition : Edition) (name title : String) (keywords : Entries Json)
    (definitions : Entries Json) : Json :=
  document edition ("meta/" ++ name) (title ++ " vocabulary meta-schema") [(name, .bool true)]
    (("properties", .object keywords) ::
      if definitions.isEmpty then [] else [("$defs", .object definitions)])

def schemaTable (edition : Edition) : Json := withDefault (tableOf edition.self) blank

def limitKeywords : Entries Json :=
  each ["maxLength", "maxItems", "maxContains", "maxProperties"]
    (localDefinition "nonNegativeInteger") ++
  each ["minLength", "minItems", "minProperties"]
    (localDefinition "nonNegativeIntegerDefault0") ++ [
  ("minContains", withDefault (localDefinition "nonNegativeInteger") (.nat 1))]

def validation (edition : Edition) : Json :=
  vocabulary edition "validation" "Validation" (
    [("type", typeNames (localDefinition "simpleTypes")),
      ("const", .bool true),
      ("enum", listOf (.bool true)),
      ("multipleOf", divisor)] ++
    each ["maximum", "exclusiveMaximum", "minimum", "exclusiveMinimum"] (typed "number") ++
    limitKeywords ++
    [("pattern", formed "regex"),
      ("uniqueItems", flag),
      ("required", localDefinition "stringArray"),
      ("dependentRequired", tableOf (localDefinition "stringArray"))])
    [("nonNegativeInteger", naturalNumber),
      ("nonNegativeIntegerDefault0", withDefault (localDefinition "nonNegativeInteger") (.nat 0)),
      ("simpleTypes", simpleTypes),
      ("stringArray", stringArray)]

def metaData (edition : Edition) : Json :=
  vocabulary edition "meta-data" "Meta-data"
    (each ["title", "description"] (typed "string") ++
      each ["deprecated", "readOnly", "writeOnly"] flag ++
      [("default", .bool true), ("examples", listOf (.bool true))]) []

def content (edition : Edition) : Json :=
  vocabulary edition "content" "Content"
    (each ["contentMediaType", "contentEncoding"] (typed "string") ++
      [("contentSchema", edition.self)]) []

def format (edition : Edition) (name title : String) : Json :=
  vocabulary edition name title [("format", typed "string")] []

/-- Keywords that apply schemas to what both drafts apply them to. -/
def applicators (edition : Edition) : Entries Json :=
  each ["contains", "additionalProperties", "propertyNames", "if", "then", "else", "not"]
    edition.self ++
  [("properties", schemaTable edition), ("patternProperties", patternTable edition.self)] ++
  each ["allOf", "anyOf", "oneOf"] (localDefinition "schemaArray")

def core2019 : Json :=
  let reference := formed "uri-reference"
  vocabulary edition2019 "core" "Core" [
    ("$id", along reference [("pattern", .string "^[^#]*#?$")]),
    ("$schema", formed "uri"),
    ("$anchor", .object [("type", .string "string"),
      ("pattern", .string "^[A-Za-z][-A-Za-z0-9.:_]*$")]),
    ("$ref", reference),
    ("$recursiveRef", reference),
    ("$recursiveAnchor", flag),
    ("$vocabulary", along (tableOf (typed "boolean")) [("propertyNames", formed "uri")]),
    ("$comment", typed "string"),
    ("$defs", schemaTable edition2019)] []

def applicator2019 : Json :=
  let self := edition2019.self
  vocabulary edition2019 "applicator" "Applicator" (
    applicators edition2019 ++
    each ["additionalItems", "unevaluatedItems", "unevaluatedProperties"] self ++
    [("items", either [self, localDefinition "schemaArray"]),
      ("dependentSchemas", tableOf self)])
    [("schemaArray", schemaArray self)]

def draft2019 : Json :=
  let self := edition2019.self
  let parts := ["core", "applicator", "validation", "meta-data", "format", "content"]
  document edition2019 "schema" "Core and Validation specifications meta-schema"
    (parts.map fun name => (name, .bool (name != "format"))) [
    ("allOf", .array (parts.map fun name => refTo ("meta/" ++ name))),
    ("properties", .object [
      ("definitions", schemaTable edition2019),
      ("dependencies", tableOf (either [self, refTo "meta/validation#/$defs/stringArray"]))])]

def core2020 : Json :=
  let reference := localDefinition "uriReferenceString"
  let anchor := localDefinition "anchorString"
  vocabulary edition2020 "core" "Core" [
    ("$id", along reference [("pattern", .string "^[^#]*#?$")]),
    ("$schema", localDefinition "uriString"),
    ("$ref", reference),
    ("$anchor", anchor),
    ("$dynamicRef", reference),
    ("$dynamicAnchor", anchor),
    ("$vocabulary",
      along (tableOf (typed "boolean")) [("propertyNames", localDefinition "uriString")]),
    ("$comment", typed "string"),
    ("$defs", tableOf edition2020.self)]
    [("anchorString", .object [("type", .string "string"),
      ("pattern", .string "^[A-Za-z_][-A-Za-z0-9._]*$")]),
    ("uriString", formed "uri"),
    ("uriReferenceString", formed "uri-reference")]

def applicator2020 : Json :=
  vocabulary edition2020 "applicator" "Applicator" (
    applicators edition2020 ++
    [("prefixItems", localDefinition "schemaArray"),
      ("items", edition2020.self),
      ("dependentSchemas", schemaTable edition2020)])
    [("schemaArray", schemaArray edition2020.self)]

def unevaluated2020 : Json :=
  vocabulary edition2020 "unevaluated" "Unevaluated applicator"
    (each ["unevaluatedItems", "unevaluatedProperties"] edition2020.self) []

def draft2020 : Json :=
  let self := edition2020.self
  let retired := ("deprecated", Json.bool true)
  let parts :=
    ["core", "applicator", "unevaluated", "validation", "meta-data", "format-annotation", "content"]
  document edition2020 "schema" "Core and Validation specifications meta-schema"
    (parts.map fun name => (name, .bool true)) [
    ("allOf", .array (parts.map fun name => refTo ("meta/" ++ name))),
    ("properties", .object [
      ("definitions", along (schemaTable edition2020) [retired]),
      ("dependencies",
        along (tableOf (either [self, refTo "meta/validation#/$defs/stringArray"]))
          [retired, ("default", blank)]),
      ("$recursiveAnchor", along (refTo "meta/core#/$defs/anchorString") [retired]),
      ("$recursiveRef", along (refTo "meta/core#/$defs/uriReferenceString") [retired])])]

def documents2019 : List Json :=
  [draft2019, core2019, applicator2019, validation edition2019, metaData edition2019,
    format edition2019 "format" "Format", content edition2019]

def documents2020 : List Json :=
  [draft2020, core2020, applicator2020, unevaluated2020, validation edition2020,
    metaData edition2020, format edition2020 "format-annotation" "Format annotation",
    format edition2020 "format-assertion" "Format assertion", content edition2020]

end SchemaCatalog.MetaSchema.Standard
