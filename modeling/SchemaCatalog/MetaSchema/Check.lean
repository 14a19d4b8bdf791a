import SchemaCatalog.Dialect
import SchemaCatalog.MetaSchema.Standard.Library
import SchemaCatalog.MetaSchema.Usability

namespace SchemaCatalog.MetaSchema

/-- Whether a value is a schema of the draft that it names, with references that lead somewhere and
patterns that mean something. -/
def accepts (schema : Json) : Bool :=
  let verdict : Option Bool := do
    let draft ← Draft.ofSchema? schema
    let (library, sites) ← Library.standard.add? draft schema
    let (start, _) ← Library.rootSite? draft schema
    let root ← start.enter? schema
    return isSchema draft schema && library.isComplete sites && library.isUsable root
  verdict.getD false

/-- The named schemas of an interface description as a schema in which their references still lead
to them. -/
def namedSchemasOf (document : Json) : Json :=
  let definitions := document.member? "definitions"
  let schemas := componentSchemas document
  let listed := (definitions.or schemas).toList.map fun value => ("definitions", value)
  let components := schemas.toList.map fun value =>
    ("components", Json.object [("schemas", value)])
  .object (listed ++ components)

def checkedPart (document : Json) : Dialect → Json
  | .jsonSchema => document
  | _ => namedSchemasOf document

def checkDocument (document : Json) (dialect : Dialect) : Outcome Unit :=
  if accepts (checkedPart document dialect) then .ok () else .error (.invalidSchema .rejected)

end SchemaCatalog.MetaSchema
