import SchemaCatalog.Catalog.Builder

namespace SchemaCatalog

/-- What a schema without a reference is, as the type of a field. -/
inductive Shape where
  | scalar (p : Primitive)
  | array
  | object
  /-- A type that no catalog can express. -/
  | unsupported (type : String)
  | severalTypes
  | choice
  | anyOf
  | anything
  | unknown
deriving DecidableEq, Repr

namespace Schema

def shape (s : Schema) : Shape :=
  match s.typeName? with
  | some type =>
    match Primitive.ofSchemaType? type s.keywords.format with
    | some p => .scalar p
    | none =>
      if type == "array" then .array else if type == "object" then .object else .unsupported type
  | none =>
    if s.keywords.type.isSome then .severalTypes
    else if s.isObject then .object
    else if s.oneOf.isSome then .choice
    else if s.anyOf.isSome then .anyOf
    else if s.items.isNone && s.allOf.isNone && s.not.isNone then .anything
    else .unknown

/-- Whether a schema is an array whose items all have the given schema. -/
def isArrayOf (array element : Schema) : Bool :=
  array.typeName? == some "array" &&
    match array.items with
    | some (.single item) => item == element
    | _ => false

/-- One of two schemas. -/
inductive Side where
  | first
  | second
deriving DecidableEq, Repr

/-- Which of two alternatives is the element, if the other is an array of it. -/
def elementSide (first second : Schema) : Option Side :=
  if isArrayOf second first then some .first
  else if isArrayOf first second then some .second
  else none

/-- The element of the idiom "one value or an array of such values". -/
def singleOrArray : List Schema → Option Schema
  | [first, second] =>
    match elementSide first second with
    | some .first => some first
    | some .second => some second
    | none => none
  | _ => none

end Schema

namespace Builder

/-- The field for a reference. The target is normalized and requested unless its name is known. -/
def referenceSpec (b : Builder) (reference path : String) : BuildM FieldSpec := do
  let parsed := Reference.parse reference
  let stub := parsed.name
  let name := b.referenceName stub
  let progress ← get
  if !progress.catalog.hasType name && !progress.requested.has name then
    let target ← liftM (Outcome.at (b.scope.registry.expand reference) path)
    let target ← liftM (Outcome.at (b.normalForm target) path)
    modify fun p => { p with followed := p.followed + 1 }
    let _ ← request { name := name, stub := stub, path := path, schema := target }
  return .one (.named name)

/-- The type of the elements of a list or table. Lists and tables cannot be elements themselves, so
they get a type of their own. -/
def elementType (b : Builder) (spec : FieldSpec) (schema : Schema) (stub path : String) :
    BuildM TypeRef :=
  if spec.isPlain then return spec.type
  else request { name := b.typeName stub, stub := stub, path := path, schema := schema }

/-- Requests the type of a schema and gives the field for it. -/
def requestSpec (b : Builder) (schema : Schema) (stub path : String) (asChoice : Bool) :
    BuildM FieldSpec := do
  let type ← request
    { name := b.typeName stub, stub := stub, path := path, schema := schema, asChoice := asChoice }
  return .one type

/-- The list of elements whose shape is found by `inner`. -/
def listSpec (b : Builder) (inner : BuildM (Option FieldSpec)) (element : Schema)
    (stub path : String) : BuildM (Option FieldSpec) := do
  match ← inner with
  | none => return none
  | some spec => return some (FieldSpec.one (← b.elementType spec element stub path)).many

/-- The table of values whose shape is found by `inner`; of any values if it finds none. -/
def tableSpec (b : Builder) (inner : BuildM (Option FieldSpec)) (value : Schema)
    (stub path : String) : BuildM (Option FieldSpec) := do
  match ← inner with
  | none => return some (.map (.primitive .any))
  | some spec => return some (.map (← b.elementType spec value stub path))

/-- How a field holds the values of a schema; nothing, and a warning, if it cannot. `stub` names the
types that the schema needs and `path` is where it stands. -/
def fieldFor (b : Builder) (stub path : String) : Schema → BuildM (Option FieldSpec)
  | ⟨kw, props, patterns, defs, items, additional, allOf, anyOf, oneOf, not⟩ =>
    let schema : Schema := ⟨kw, props, patterns, defs, items, additional, allOf, anyOf, oneOf, not⟩
    match kw.reference with
    | some reference => do return some (← b.referenceSpec reference path)
    | none =>
      match schema.shape with
      | .scalar p => return some (.scalar p)
      | .array =>
        match items with
        | some (.single item) =>
          b.listSpec (fieldFor b (stub ++ "Item") (path ++ "/items") item) item (stub ++ "Item")
            (path ++ "/items")
        | some (.tuple (item :: _)) =>
          b.listSpec (fieldFor b (stub ++ "Item") (path ++ "/items") item) item (stub ++ "Item")
            (path ++ "/items")
        | _ => return some (FieldSpec.scalar .any).many
      | .object =>
        if props.isSome || patterns.isSome then do
          return some (← b.requestSpec schema stub path false)
        else
          match additional with
          | some (.schema value) =>
            b.tableSpec (fieldFor b (stub ++ "Value") (path ++ "/additionalProperties") value) value
              (stub ++ "Value") (path ++ "/additionalProperties")
          | _ => return some (.map (.primitive .any))
      | .unsupported type => do
        warn "unsupported-type" path s!"type \"{type}\" is not supported"
        return none
      | .severalTypes => do
        warn "unsupported-type-list" path
          "schemas with several non-null types are not supported"
        return none
      | .choice => do return some (← b.requestSpec schema stub path true)
      | .anyOf =>
        match anyOf with
        | some [first, second] =>
          match Schema.elementSide first second with
          | some .first =>
            b.listSpec (fieldFor b (stub ++ "Item") path first) first (stub ++ "Item") path
          | some .second =>
            b.listSpec (fieldFor b (stub ++ "Item") path second) second (stub ++ "Item") path
          | none => do return some (← b.requestSpec schema stub path false)
        | _ => do
          let count := (anyOf.getD []).length
          warn "unsupported-any-of" path s!"anyOf with {count} members is not supported"
          return none
      | .anything => return some (.scalar .any)
      | .unknown => do
        warn "unsupported-shape" path
          "schema has no type, reference or composition that can be modeled"
        return none

end Builder

end SchemaCatalog
