import SchemaCatalog.Error

namespace SchemaCatalog

/-- The kind of a document. -/
inductive Dialect where
  /-- A schema, which may stand for a type itself. -/
  | jsonSchema
  | swagger2
  | openApi3
deriving DecidableEq, Repr, Inhabited

namespace Dialect

def all : List Dialect := [.jsonSchema, .swagger2, .openApi3]

def name : Dialect → String
  | .jsonSchema => "jsonSchema"
  | .swagger2 => "swagger2"
  | .openApi3 => "openApi3"

def ofName? (text : String) : Option Dialect := all.find? (·.name == text)

/-- The dialect of a document, by the version it states. -/
def detect (document : Json) : Dialect :=
  if document.stringMember? "swagger" == some "2.0" then .swagger2
  else
    match (document.stringMember? "openapi").map String.toList with
    | some ('3' :: _) => .openApi3
    | _ => .jsonSchema

/-- Whether documents of the dialect describe operations. -/
def hasOperations : Dialect → Bool
  | .jsonSchema => false
  | _ => true

end Dialect

/-- The named schemas of an interface description, as the definitions of one schema. -/
def namedSchemas (schemas : Option Json) : Outcome Schema :=
  match schemas with
  | none => .ok {}
  | some (.object members) => do
    let definitions ← members.mapM fun (name, value) =>
      match Schema.decode value with
      | .ok schema => .ok (name, schema)
      | .error fault => .error (CatalogError.invalidSchema (.named name fault))
    return { definitions := some definitions }
  | some _ => .error (.invalidSchema (.other "named schemas must be an object"))

def componentSchemas (document : Json) : Option Json :=
  (document.member? "components").bind (·.member? "schemas")

def rootSchema (dialect : Dialect) (document : Json) : Outcome Schema :=
  match dialect with
  | .jsonSchema => readSchema document
  | .swagger2 => namedSchemas (document.member? "definitions")
  | .openApi3 => namedSchemas (componentSchemas document)

end SchemaCatalog
