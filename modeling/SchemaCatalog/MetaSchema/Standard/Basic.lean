import SchemaCatalog.Json.Basic

namespace SchemaCatalog.MetaSchema.Standard

def typed (name : String) : Json := .object [("type", .string name)]

def formed (format : String) : Json :=
  .object [("type", .string "string"), ("format", .string format)]

def refTo (text : String) : Json := .object [("$ref", .string text)]

def along (schema : Json) (members : Entries Json) : Json :=
  .object ((schema.members?.getD []) ++ members)

def withDefault (schema value : Json) : Json := along schema [("default", value)]

def blank : Json := .object []

def listOf (item : Json) : Json := .object [("type", .string "array"), ("items", item)]

def tableOf (value : Json) : Json :=
  .object [("type", .string "object"), ("additionalProperties", value)]

def either (schemas : List Json) : Json := .object [("anyOf", .array schemas)]

def each (keywords : List String) (schema : Json) : Entries Json := keywords.map (·, schema)

def flag : Json := withDefault (typed "boolean") (.bool false)

def schemaArray (self : Json) : Json :=
  .object [("type", .string "array"), ("minItems", .nat 1), ("items", self)]

def naturalNumber : Json := .object [("type", .string "integer"), ("minimum", .nat 0)]

def simpleTypes : Json :=
  .object [("enum",
    .strings ["array", "boolean", "integer", "null", "number", "object", "string"])]

def stringArray : Json :=
  along (listOf (typed "string")) [("uniqueItems", .bool true), ("default", .array [])]

def typeNames (simple : Json) : Json :=
  either [simple,
    .object [("type", .string "array"), ("items", simple), ("minItems", .nat 1),
      ("uniqueItems", .bool true)]]

def patternTable (self : Json) : Json :=
  along (tableOf self)
    [("propertyNames", .object [("format", .string "regex")]), ("default", blank)]

def divisor : Json := .object [("type", .string "number"), ("exclusiveMinimum", .nat 0)]

def schemaTypes : Json := .strings ["object", "boolean"]

end SchemaCatalog.MetaSchema.Standard
