import SchemaCatalog.Normal.AllOf
import SchemaCatalog.Normal.OneOf

namespace SchemaCatalog.Schema

/-- The normal form. References that a merge brings in are inlined again. -/
def normalize (scope : Scope) (root : Schema) : Outcome Schema := do
  let (root, _) ← root.inlineReferences scope
  let (root, merged) ← root.mergeAllOf scope.registry
  let (root, _) ← if merged > 0 then root.inlineReferences scope else pure (root, 0)
  return root.flattenOneOf.1

end SchemaCatalog.Schema
