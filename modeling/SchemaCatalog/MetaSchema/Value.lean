import SchemaCatalog.Json.Basic

namespace SchemaCatalog.MetaSchema

def typeNames : List String := ["array", "boolean", "integer", "null", "number", "object", "string"]

def isTypeName : Json → Bool
  | .string name => typeNames.contains name
  | _ => false

def allDiffer (texts : List String) : Bool := texts.eraseDups.length == texts.length

def areNames (items : List Json) : Bool :=
  match items.mapM Json.string? with
  | some texts => allDiffer texts
  | none => false

def isNames : Json → Bool
  | .array items => areNames items
  | _ => false

end SchemaCatalog.MetaSchema
