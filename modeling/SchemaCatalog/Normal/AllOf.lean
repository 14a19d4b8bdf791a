import SchemaCatalog.Normal.References

namespace SchemaCatalog

namespace Schema

/-- The members merged in order, each made plain by `plain`. `path` is that of the list. -/
def combine (plain : String → Schema → Outcome Schema) (path : String) :
    Nat → Schema → List Schema → Outcome Schema
  | _, combined, [] => .ok combined
  | i, combined, member :: rest => do
    let member ← plain s!"{path}/{i}" member
    combine plain path (i + 1) (combined.overwriteFrom member) rest

/-- Merges the `allOf` list of one node and counts it. -/
def mergeNode (plain : String → Schema → Outcome Schema) (path : String) (node : Schema) :
    StateT Nat Outcome Schema :=
  match node.allOf with
  | none => pure node
  | some members => do
    let combined ← liftM (combine plain s!"{path}/allOf" 0 {} members)
    modify (· + 1)
    return { node with allOf := none }.fillAbsent combined

/-- Replaces the reference of a member by its merged target, then the one this brings in, and so on.
`chain` holds the references that are being replaced. -/
def expandMember (registry : Registry) : Nat → List String → String → Schema → Outcome Schema
  | 0, chain, _, member =>
    match member.reference with
    | none => .ok member
    | some reference => .error (.cyclicReference (chain ++ [reference]))
  | fuel + 1, chain, path, member =>
    match member.reference with
    | none => .ok member
    | some reference =>
      if chain.contains reference then .error (.cyclicReference (chain ++ [reference]))
      else do
        let chain := chain ++ [reference]
        let target ← Outcome.at (registry.expand reference) path
        let merge := mergeNode (expandMember registry fuel chain)
        let (target, _) ← (target.walk merge reference).run 0
        expandMember registry fuel chain path (member.clearReference.fillAbsent target)

/-- Merges every `allOf` list. The number of nodes that had one comes second. -/
def mergeAllOf (registry : Registry) (root : Schema) : Outcome (Schema × Nat) :=
  let fuel := root.references.length + registry.referenceBound
  (root.walk (mergeNode (expandMember registry fuel [])) "#").run 0

end Schema

end SchemaCatalog
