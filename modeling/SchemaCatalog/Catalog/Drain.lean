import SchemaCatalog.Catalog.TypeShape

namespace SchemaCatalog.Builder

/-- Requests the type of the root document. -/
def requestRoot (b : Builder) (root : Schema) : BuildM TypeRef :=
  request
    { name := b.rootName, stub := rootStub b.options (some root), path := "#", schema := root }

/-- Requests the types of definitions, in order. -/
def requestDefinitions (b : Builder) : List (String × Schema) → BuildM Unit
  | [] => return ()
  | (key, schema) :: rest => do
    let _ ← request
      { name := b.typeName key, stub := key, path := s!"#/definitions/{key}", schema := schema }
    requestDefinitions b rest

/-- More requests than can be built before a reference has to be followed: until then the requested
schemas only get smaller. -/
def stepBudget (pending : List Request) : Nat :=
  pending.foldr (fun r total => Nat.pow 2 r.schema.size + total) 1

/-- More references than can be followed, each of which gives a name its type. -/
def roundBudget (b : Builder) (pending : List Request) : Nat :=
  b.scope.registry.referenceBound + (pending.flatMap fun r => r.schema.references).length + 1

def endless : BuildM Unit := do
  throw (.cyclicReference ((← get).pending.map (·.name)))

def buildNext (b : Builder) (r : Request) (rest : List Request) : BuildM Unit := do
  modify fun p => { p with pending := rest }
  let type ← b.buildType r
  modify fun p => { p with catalog := p.catalog.addType type }

/-- Builds requests until a reference was followed, then goes on with `again`. -/
def drainSteps (b : Builder) (again : BuildM Unit) : Nat → BuildM Unit
  | 0 => endless
  | steps + 1 => do
    let before ← get
    match before.pending with
    | [] => return ()
    | r :: rest => do
      b.buildNext r rest
      if (← get).followed == before.followed then drainSteps b again steps else again

/-- Builds requests in rounds; each round but the last ends with a reference followed. -/
def drainRounds (b : Builder) : Nat → BuildM Unit
  | 0 => endless
  | rounds + 1 => do drainSteps b (drainRounds b rounds) (stepBudget (← get).pending)

/-- Builds all requests, those made on the way included. -/
def drain (b : Builder) : BuildM Unit := do drainRounds b (b.roundBudget (← get).pending)

end SchemaCatalog.Builder
