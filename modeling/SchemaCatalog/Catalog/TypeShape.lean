import SchemaCatalog.Catalog.FieldShape

namespace SchemaCatalog.Builder

def propertyField (b : Builder) (type key : String) (schema : Schema) : BuildM (Option Field) := do
  let spec ← b.fieldFor key s!"{type}/properties/{key}" schema
  return spec.map fun spec => b.field spec key schema.keywords.description

/-- The field for a pattern, if the options name one. -/
def patternField (b : Builder) (type pattern : String) (schema : Schema) :
    BuildM (Option Field) := do
  let path := s!"{type}/patternProperties/{pattern}"
  match b.options.patternNames.lookup pattern with
  | none => do
    warn "unnamed-pattern" path s!"no field name configured for pattern \"{pattern}\""
    return none
  | some name => do
    let stub := name ++ "Value"
    match ← b.fieldFor stub path schema with
    | none => return none
    | some spec => do
      let value ← b.elementType spec schema stub path
      return some (b.field (.map value) name schema.keywords.description)

/-- The fields that a step finds for the entries of a table, in order. -/
def collectFields (step : String → Schema → BuildM (Option Field)) :
    List (String × Schema) → BuildM (List Field)
  | [] => return []
  | (key, schema) :: rest => do
    let field ← step key schema
    let fields ← collectFields step rest
    return field.toList ++ fields

def admitsMore (schema : Schema) : Bool :=
  match schema.additionalProperties with
  | none => false
  | some (.allowed verdict) => verdict
  | some (.schema _) => true

/-- The type of the values of undeclared keys, where these get a field of their own: not next to
declared properties, and not if no catalog can express them. -/
def additionalType (b : Builder) (r : Request) : BuildM (Option TypeRef) :=
  if r.schema.properties.isSome then return none
  else
    match r.schema.additionalProperties with
    | some (.allowed true) => return some (.primitive .any)
    | some (.schema value) => do
      let stub := r.stub ++ "Value"
      let path := s!"{r.name}/additionalProperties"
      match ← b.fieldFor stub path value with
      | none => return none
      | some spec => return some (← b.elementType spec value stub path)
    | _ => return none

def distinctNames (names : List String) : List String := appendNew [] names

def buildObject (b : Builder) (r : Request) : BuildM CatalogType := do
  let schema := r.schema
  let properties ← collectFields (b.propertyField r.name) (schema.properties.getD [])
  let patterns := schema.patternProperties.getD []
  let patternFields ← collectFields (b.patternField r.name) patterns
  let additional ← b.additionalType r
  let additional := if schema.isEmpty then some (.primitive .any) else additional
  let extra := additional.toList.map fun value => b.field (.map value) "additionalProperties" none
  return {
    name := r.name
    kind := if additional.isSome && schema.patternProperties.isNone then .map else .struct
    fields := properties ++ patternFields ++ extra
    required := distinctNames (schema.keywords.required.getD [])
    isOpen := !patterns.isEmpty || additional.isSome ||
      (schema.properties.isSome && admitsMore schema) }

/-- The field for one alternative: only references and booleans can be one. -/
def memberField (b : Builder) (path keyword : String) (member : Schema) :
    BuildM (Option Field) := do
  match member.reference with
  | some reference => do
    let stub := (Reference.parse reference).name
    let name := if stub.isEmpty then b.rootName else stub
    let spec ← b.referenceSpec reference path
    return some (b.field spec name member.keywords.description)
  | none =>
    if member.typeName? == some "boolean" then
      return some (b.field (.scalar .bool) "boolean" member.keywords.description)
    else do
      warn "unsupported-union-member" path
        s!"only $ref and boolean {keyword} alternatives are modeled"
      return none

/-- The fields for alternatives from position `i` on. -/
def memberFields (b : Builder) (path keyword : String) : Nat → List Schema → BuildM (List Field)
  | _, [] => return []
  | i, member :: rest => do
    let field ← b.memberField s!"{path}/{keyword}/{i}" keyword member
    let fields ← memberFields b path keyword (i + 1) rest
    return field.toList ++ fields

/-- The type of a choice: one field per alternative. -/
def buildChoice (b : Builder) (r : Request) : BuildM CatalogType := do
  let fields ← b.memberFields r.name "oneOf" 0 (r.schema.oneOf.getD [])
  return { name := r.name, kind := .oneOfWrapper, fields := fields }

/-- The type of two alternatives of which several can hold. -/
def buildPair (b : Builder) (r : Request) : BuildM CatalogType := do
  let members := r.schema.anyOf.getD []
  if members.length != 2 then
    warn "unsupported-any-of" r.name s!"anyOf with {members.length} members is not supported"
    return { name := r.name, kind := .struct }
  else
    let fields ← b.memberFields r.name "anyOf" 0 members
    return { name := r.name, kind := .struct, fields := fields }

/-- The type that names a scalar, an array or another type. -/
def buildAlias (b : Builder) (r : Request) : BuildM CatalogType := do
  let spec ← b.fieldFor r.stub s!"{r.name}/value" r.schema
  let fields := spec.toList.map fun spec => b.field spec "value" none
  return { name := r.name, kind := .scalarAlias, fields := fields }

/-- The sort of type that a request asks for. -/
inductive Form where
  | choice
  | object
  | pair
  | alias
deriving DecidableEq, Repr

def formOf (r : Request) : Form :=
  let s := r.schema
  let untyped := s.keywords.type.isNone && s.reference.isNone
  if r.asChoice || (untyped && s.oneOf.isSome) then .choice
  else if s.reference.isNone && (s.isObject || s.isEmpty) then .object
  else if untyped && s.anyOf.any (fun members => (Schema.singleOrArray members).isNone) then .pair
  else .alias

def buildType (b : Builder) (r : Request) : BuildM CatalogType := do
  let type ← match formOf r with
    | .choice => b.buildChoice r
    | .object => b.buildObject r
    | .pair => b.buildPair r
    | .alias => b.buildAlias r
  return { type with description := r.schema.keywords.description }

end SchemaCatalog.Builder
