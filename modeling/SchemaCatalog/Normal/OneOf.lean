import SchemaCatalog.Schema.Walk

namespace SchemaCatalog.Schema

mutual

/-- The alternatives of a schema: those of the members of its `oneOf` list, or the schema itself if
it has no members. -/
def alternatives : Schema → List Schema
  | ⟨_, _, _, _, _, _, _, _, some (first :: rest), _⟩ => alternatives first ++ alternativesOf rest
  | s => [s]

/-- The alternatives of several schemas, in order. -/
def alternativesOf : List Schema → List Schema
  | [] => []
  | s :: rest => alternatives s ++ alternativesOf rest

end

def isChoice (s : Schema) : Bool :=
  match s.oneOf with
  | some (_ :: _) => true
  | _ => false

/-- Flattens the `oneOf` list of one node and counts it if that changes something. -/
def flattenNode (node : Schema) : StateM Nat Schema :=
  match node.oneOf with
  | none => pure node
  | some members => do
    if members.any isChoice then modify (· + 1)
    return { node with oneOf := some (alternativesOf members) }

/-- Flattens every `oneOf` list. The number of lists that changed comes second. -/
def flattenOneOf (root : Schema) : Schema × Nat :=
  (root.walk (fun _ node => flattenNode node) "#").run 0

end SchemaCatalog.Schema
