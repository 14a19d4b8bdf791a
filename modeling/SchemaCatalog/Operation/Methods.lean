import SchemaCatalog.Operation.Parameters
import SchemaCatalog.Catalog.Drain

namespace SchemaCatalog.Operation

/-- An operation where it stands in a document. -/
structure Site where
  document : Json
  dialect : Dialect
  path : String
  verb : String
  operation : Json

/-- The verbs that can stand in a path item, in the order in which methods are listed. -/
def verbs : List String := ["get", "put", "post", "delete", "options", "head", "patch"]

namespace Site

def name (site : Site) (naming : NamingConvention) : String :=
  match site.operation.stringMember? "operationId" with
  | some id => Naming.typeName "" id naming
  | none => Naming.methodName site.verb site.path

def description (site : Site) : Option String :=
  ((site.operation.member? "summary").or (site.operation.member? "description")).bind Json.string?

/-- The field of a parameter, body or response. Types that it needs are named after the method. -/
def field (b : Builder) (method name path : String) (schema : Schema)
    (description : Option String) : BuildM (Option Field) := do
  let schema ← liftM (Outcome.at (b.normalForm schema) path)
  let spec ← b.fieldFor (method ++ Naming.capitalize name) path schema
  return spec.map fun spec => b.field spec name (description.or schema.keywords.description)

/-- A field with its position, and its name if it is required. -/
abbrev Slot := Field × Option String

def isRequired (value : Json) : Bool := (value.member? "required").bind Json.bool? == some true

def slot (field : Field) (position : Option Position) (source : Json) : Slot :=
  ({ field with position := position }, if isRequired source then some field.name else none)

/-- The slot of a parameter. Parameters without a name or a schema have none. -/
def parameterSlot (site : Site) (b : Builder) (method : String) (parameter : Json) :
    BuildM (Option Slot) := do
  match parameter.stringMember? "name" with
  | none => return none
  | some name =>
    match ← liftM (parameterSchema site.dialect parameter) with
    | none => return none
    | some schema => do
      let found ← field b method name s!"{method}/parameters/{name}" schema
        (parameter.stringMember? "description")
      return found.map fun field =>
        slot field ((parameter.stringMember? "in").bind Position.ofName?) parameter

/-- The slots of parameters, in order. -/
def parameterSlots (site : Site) (b : Builder) (method : String) : List Json → BuildM (List Slot)
  | [] => return []
  | parameter :: rest => do
    let slot ← site.parameterSlot b method parameter
    let slots ← parameterSlots site b method rest
    return slot.toList ++ slots

def bodySlot (site : Site) (b : Builder) (method : String) : BuildM (Option Slot) := do
  match site.operation.member? "requestBody" with
  | none => return none
  | some body => do
    let body ← liftM (site.document.follow body)
    match ← liftM (mediaSchema body) with
    | none => return none
    | some schema => do
      let found ← field b method "body" s!"{method}/requestBody" schema
        (body.stringMember? "description")
      return found.map fun field => slot field (some .body) body

def parametersType (site : Site) (b : Builder) (method : String) (shared : List Json) :
    BuildM CatalogType := do
  let parameters ← liftM (mergedParameters site.document site.operation shared)
  let slots ← site.parameterSlots b method parameters
  let body ← site.bodySlot b method
  let slots := slots ++ body.toList
  return {
    name := b.typeName (method ++ "Parameters")
    kind := .struct
    fields := slots.map Prod.fst
    required := slots.filterMap Prod.snd }

/-- The field of a response; a response without a schema only gets a note. -/
def responseField (site : Site) (b : Builder) (method code : String) (response : Json) :
    BuildM (Option Field) := do
  let response ← liftM (site.document.follow response)
  let path := s!"{method}/responses/{code}"
  match ← liftM (responseSchema site.dialect response) with
  | none => do
    Builder.note "response-without-schema" path "response has no schema"
    return none
  | some schema => field b method code path schema (response.stringMember? "description")

/-- The fields of responses, in order. -/
def responseFields (site : Site) (b : Builder) (method : String) :
    List (String × Json) → BuildM (List Field)
  | [] => return []
  | (code, response) :: rest => do
    let field ← site.responseField b method code response
    let fields ← responseFields site b method rest
    return field.toList ++ fields

def responsesType (site : Site) (b : Builder) (method : String) : BuildM CatalogType := do
  let responses := ((site.operation.member? "responses").bind Json.members?).getD []
  let fields ← site.responseFields b method responses
  return { name := b.typeName (method ++ "Responses"), kind := .struct, fields := fields }

/-- Adds a type that has fields and gives its name. -/
def addType (type : CatalogType) : BuildM (Option String) := do
  if type.fields.isEmpty then return none
  else
    modify fun p => { p with catalog := p.catalog.addType type }
    return some type.name

/-- The method of an operation; its types are added to the catalog. -/
def method (site : Site) (b : Builder) (shared : List Json) : BuildM Method := do
  let name := site.name b.options.naming
  let parameters ← site.parametersType b name shared
  let responses ← site.responsesType b name
  let parametersName ← addType parameters
  let responsesName ← addType responses
  return {
    name := name
    path := site.path
    verb := site.verb.map Char.toUpper
    parametersType := parametersName
    responsesType := responsesName
    description := site.description }

end Site

/-- Adds the methods of a path item, in the order of the verbs. The number of them is the result. -/
def addItemMethods (b : Builder) (document : Json) (dialect : Dialect) (path : String)
    (item : Json) :
    List String → BuildM Nat
  | [] => return 0
  | verb :: rest => do
    let count ← match item.member? verb with
      | none => pure 0
      | some operation => do
        let site : Site := ⟨document, dialect, path, verb, operation⟩
        let method ← site.method b (listMember item "parameters")
        modify fun p => { p with catalog := p.catalog.addMethod method }
        pure 1
    return count + (← addItemMethods b document dialect path item rest)

/-- Adds the methods of paths, in order. -/
def addPathMethods (b : Builder) (document : Json) (dialect : Dialect) :
    List (String × Json) → BuildM Nat
  | [] => return 0
  | (path, item) :: rest => do
    let item ← liftM (document.follow item)
    let count ← addItemMethods b document dialect path item verbs
    return count + (← addPathMethods b document dialect rest)

def addMethods (b : Builder) (document : Json) (dialect : Dialect) : BuildM Nat :=
  addPathMethods b document dialect (((document.member? "paths").bind Json.members?).getD [])

end SchemaCatalog.Operation
