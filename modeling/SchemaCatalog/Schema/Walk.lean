import SchemaCatalog.Schema.Basic

namespace SchemaCatalog.Schema

/-- The subschemas directly below, with their paths, in keyword order. -/
def children (s : Schema) : List (String × Schema) :=
  table "properties" s.properties ++ table "patternProperties" s.patternProperties ++
    table "definitions" s.definitions ++
    (match s.items with
      | none => []
      | some (.single child) => [("items", child)]
      | some (.tuple list) => positions "items" list) ++
    (match s.additionalProperties with
      | some (.schema child) => [("additionalProperties", child)]
      | _ => []) ++
    positions "allOf" (s.allOf.getD []) ++ positions "anyOf" (s.anyOf.getD []) ++
    positions "oneOf" (s.oneOf.getD []) ++ s.not.toList.map (fun child => ("not", child))
where
  /-- The entries of a keyword that holds a table. -/
  table (keyword : String) (entries : Option (Entries Schema)) : List (String × Schema) :=
    (entries.getD []).map fun (key, child) => (s!"{keyword}/{key}", child)
  /-- The entries of a keyword that holds a list. -/
  positions (keyword : String) (list : List Schema) : List (String × Schema) :=
    list.mapIdx fun i child => (s!"{keyword}/{i}", child)

section

variable {m : Type → Type} [Monad m] (visit : String → Schema → m Schema)

mutual

/-- Replaces every node by what `visit` makes of it and its path, children before their parent. -/
def walk (path : String) : Schema → m Schema
  | ⟨kw, props, patterns, defs, items, additional, allOf, anyOf, oneOf, not⟩ => do
    let props ← walkTable (path ++ "/properties/") props
    let patterns ← walkTable (path ++ "/patternProperties/") patterns
    let defs ← walkTable (path ++ "/definitions/") defs
    let items ← walkItems (path ++ "/items") items
    let additional ← walkAdditional (path ++ "/additionalProperties") additional
    let allOf ← walkLists (path ++ "/allOf/") allOf
    let anyOf ← walkLists (path ++ "/anyOf/") anyOf
    let oneOf ← walkLists (path ++ "/oneOf/") oneOf
    let not ← walkNode (path ++ "/not") not
    visit path ⟨kw, props, patterns, defs, items, additional, allOf, anyOf, oneOf, not⟩

def walkNode (path : String) : Option Schema → m (Option Schema)
  | none => pure none
  | some s => do return some (← walk path s)

def walkItems (path : String) : Option (Items Schema) → m (Option (Items Schema))
  | none => pure none
  | some (.single s) => do return some (.single (← walk path s))
  | some (.tuple list) => do return some (.tuple (← walkList (path ++ "/") 0 list))

def walkAdditional (path : String) : Option (Additional Schema) → m (Option (Additional Schema))
  | none => pure none
  | some (.allowed verdict) => pure (some (.allowed verdict))
  | some (.schema s) => do return some (.schema (← walk path s))

def walkLists (path : String) : Option (List Schema) → m (Option (List Schema))
  | none => pure none
  | some list => do return some (← walkList path 0 list)

def walkList (path : String) (i : Nat) : List Schema → m (List Schema)
  | [] => pure []
  | s :: rest => do
    let s ← walk (path ++ toString i) s
    let rest ← walkList path (i + 1) rest
    return s :: rest

def walkTable (path : String) :
    Option (List (String × Schema)) → m (Option (List (String × Schema)))
  | none => pure none
  | some entries => do return some (← walkEntries path entries)

def walkEntries (path : String) : List (String × Schema) → m (List (String × Schema))
  | [] => pure []
  | (key, s) :: rest => do
    let s ← walk (path ++ key) s
    let rest ← walkEntries path rest
    return (key, s) :: rest

end

end

/-- The paths and nodes of a schema, children before their parent. -/
def nodes (path : String) (s : Schema) : List (String × Schema) :=
  let note (path : String) (node : Schema) : StateM (List (String × Schema)) Schema := do
    modify ((path, node) :: ·)
    return node
  ((walk note path s).run []).2.reverse

def size (s : Schema) : Nat := (s.nodes "").length

/-- The `$ref`s in a schema, children before their parent. -/
def references (s : Schema) : List String := (s.nodes "").filterMap (·.2.reference)

/-- The schema with every `$ref` rewritten. -/
def mapReferences (f : String → String) (s : Schema) : Schema :=
  Id.run (walk (fun _ node => pure <|
    match node.reference with
    | some reference => node.withReference (f reference)
    | none => node) "" s)

end SchemaCatalog.Schema
