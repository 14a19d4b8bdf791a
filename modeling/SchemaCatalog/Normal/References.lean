import SchemaCatalog.Registry
import SchemaCatalog.Schema.Walk
import SchemaCatalog.Schema.Merging

namespace SchemaCatalog

/-- What references mean in a run: the documents they lead into and the options. -/
structure Scope where
  registry : Registry
  options : Options := {}

/-- The schema with its references made usable outside of `document`. -/
def Schema.qualify (s : Schema) (document : String) : Schema :=
  s.mapReferences fun reference => Reference.qualify reference document

namespace Registry

/-- A bound on the number of references that occur in the documents, each qualified with any id. -/
def referenceBound (r : Registry) : Nat :=
  (r.documents.flatMap fun (_, document) => document.references).length * (r.size + 1) + 2

/-- A copy of what a reference denotes, with its own references qualified. -/
def expand (r : Registry) (reference : String) : Outcome Schema := do
  let target ← r.resolve reference
  return target.qualify (Reference.parse reference).document

end Registry

namespace Scope

/-- Whether a reference may be inlined: it is not kept and does not denote an object. -/
def isInlinable (scope : Scope) (reference : String) : Outcome Bool :=
  if scope.options.isKept reference then .ok false
  else do return !(← scope.registry.resolve reference).isObject

/-- The same with an unresolvable reference counted as not inlinable. -/
def inlines (scope : Scope) (reference : String) : Bool :=
  match scope.isInlinable reference with
  | .ok verdict => verdict
  | .error _ => false

/-- The inlinable references in what a reference denotes. -/
def successors (scope : Scope) (reference : String) : List String :=
  match scope.registry.resolve reference with
  | .error _ => []
  | .ok target =>
    let document := (Reference.parse reference).document
    (target.references.map fun nested => Reference.qualify nested document).filter scope.inlines

/-- Follows references whose target is itself a reference, and refuses a loop of them. Such a loop
has no content that a type could stand for. -/
def followAliases (scope : Scope) : Nat → List String → String → Outcome Unit
  | 0, _, _ => .ok ()
  | fuel + 1, chain, current =>
    match scope.registry.resolve current with
    | .error _ => .ok ()
    | .ok target =>
      match target.reference with
      | none => .ok ()
      | some next =>
        let next := Reference.qualify next (Reference.parse current).document
        if !scope.inlines next then .ok ()
        else if chain.contains next then .error (.cyclicReference (chain ++ [next]))
        else followAliases scope fuel (chain ++ [next]) next

def checkAliases (scope : Scope) (reference : String) : Outcome Unit :=
  scope.followAliases scope.registry.referenceBound [reference] reference

/-- Searches for `goal` among the successors of the stacked references and of theirs. -/
def search (scope : Scope) (goal : String) : Nat → List String → List String → Bool
  | 0, _, _ => false
  | _ + 1, _, [] => false
  | fuel + 1, visited, current :: stack =>
    let found := scope.successors current
    if found.contains goal then true
    else
      let fresh := (found.filter fun reference => !visited.contains reference).eraseDups
      search scope goal fuel (visited ++ fresh) (fresh ++ stack)

/-- Whether a reference leads back to itself through inlinable references. -/
def leadsBack (scope : Scope) (reference : String) : Bool :=
  scope.search reference scope.registry.referenceBound [] [reference]

/-- Whether a reference is recursive, so that inlining it would not end. -/
def isRecursive (scope : Scope) (reference : String) : Outcome Bool := do
  scope.checkAliases reference
  return scope.leadsBack reference

/-- The verdict from those known already, or a new one, which is then known too. -/
def verdictOf (scope : Scope) (known : Entries Bool) (reference : String) :
    Outcome (Bool × Entries Bool) :=
  match known.lookup reference with
  | some verdict => .ok (verdict, known)
  | none => do
    let verdict ← scope.isRecursive reference
    return (verdict, known.put reference verdict)

end Scope

namespace Schema

/-- What inlining passes keep track of. -/
structure InlineState where
  /-- Which references were found to be recursive, and which not. -/
  known : Entries Bool := []
  inlined : List String := []

/-- Inlines the reference of a node, then the one this brings in, and so on. -/
def inlineNode (scope : Scope) (path : String) : Nat → Schema → StateT InlineState Outcome Schema
  | 0, node => pure node
  | fuel + 1, node =>
    match node.reference with
    | none => pure node
    | some reference => do
      let inlinable ← liftM ((scope.isInlinable reference).at path)
      if !inlinable then return node
      let state ← get
      let (recursive, known) ← liftM (scope.verdictOf state.known reference)
      set { state with known := known }
      if recursive then return node
      let copy ← liftM (scope.registry.expand reference)
      modify fun state => { state with inlined := state.inlined ++ [reference] }
      inlineNode scope path fuel (node.clearReference.fillAbsent copy)

/-- One pass: inlines references at every node, children first. -/
def inlinePass (scope : Scope) (root : Schema) : StateT InlineState Outcome Schema :=
  root.walk (fun path node => inlineNode scope path (scope.registry.referenceBound + 1) node) "#"

/-- The list with equal neighbours made one. -/
def dropRepeats : List String → List String
  | [] => []
  | [x] => [x]
  | x :: y :: rest => if x == y then dropRepeats (y :: rest) else x :: dropRepeats (y :: rest)

/-- Passes over the schema until one inlines nothing, at most `left` times. -/
def inlineFrom (scope : Scope) (known : Entries Bool) (last : List String) (passed : Nat) :
    Nat → Schema → Outcome (Schema × Nat)
  | 0, _ => .error (.cyclicReference (dropRepeats last))
  | left + 1, root => do
    let (root, state) ← (inlinePass scope root).run { known := known }
    if state.inlined.isEmpty then return (root, passed + 1)
    else inlineFrom scope state.known state.inlined (passed + 1) left root

/-- Inlines references until nothing changes. The number of passes comes second; more of them than
the options allow count as a cycle. -/
def inlineReferences (scope : Scope) (root : Schema) : Outcome (Schema × Nat) :=
  inlineFrom scope [] [] 0 scope.options.maxPasses root

end Schema

end SchemaCatalog
