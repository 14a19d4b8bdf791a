import SchemaCatalog.Catalog.Basic
import SchemaCatalog.Json.Basic

namespace SchemaCatalog

/-- A member that is left out when there is nothing to say. -/
def optionalMember (name : String) (value : Option String) : List (String × Json) :=
  match value with
  | none => []
  | some text => [(name, .string text)]

def Field.encode (f : Field) : Json :=
  .object <|
    [("name", .string f.name), ("fieldName", .string f.fieldName), ("type", .string f.type.text),
      ("kind", .string f.kind.name), ("repeated", .bool f.repeated)] ++
    optionalMember "mapValueType" (f.mapValueType.map TypeRef.text) ++
    optionalMember "position" (f.position.map Position.name) ++
    optionalMember "description" f.description

def CatalogType.encode (t : CatalogType) : Json :=
  .object <|
    [("name", .string t.name), ("kind", .string t.kind.name),
      ("fields", .array (t.fields.map Field.encode)), ("required", .strings t.required)] ++
    optionalMember "description" t.description ++ [("open", .bool t.isOpen)]

def Method.encode (m : Method) : Json :=
  .object <|
    [("name", .string m.name), ("path", .string m.path), ("httpMethod", .string m.verb),
      ("parametersTypeName", .ofString? m.parametersType),
      ("responsesTypeName", .ofString? m.responsesType)] ++
    optionalMember "description" m.description

def Catalog.encode (c : Catalog) : Json :=
  .object [("types", .array (c.types.map CatalogType.encode)),
    ("methods", .array (c.methods.map Method.encode))]

end SchemaCatalog
