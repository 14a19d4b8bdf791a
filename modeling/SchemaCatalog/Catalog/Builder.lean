import SchemaCatalog.Catalog.FieldSpec
import SchemaCatalog.Diagnostic
import SchemaCatalog.Normal.Basic
import SchemaCatalog.Schema.Equality

namespace SchemaCatalog

/-- A type that is still to be built. -/
structure Request where
  name : String
  /-- What the name was made from, and those of nested types are made from. -/
  stub : String
  /-- The path of the schema, for diagnostics. -/
  path : String
  schema : Schema
  /-- Whether the type stands for the alternatives of a `oneOf` list. -/
  asChoice : Bool := false
deriving Inhabited

/-- What stays fixed while a catalog is built. -/
structure Builder where
  scope : Scope
  /-- The name of the type for the root document. -/
  rootName : String

/-- How far a catalog is built. -/
structure Progress where
  catalog : Catalog := {}
  /-- Requests in the order in which they are built. -/
  pending : List Request := []
  /-- The schema that each requested name stands for. -/
  requested : Entries Schema := []
  diagnostics : List Diagnostic := []
  followed : Nat := 0
deriving Inhabited

abbrev BuildM := StateT Progress Outcome

namespace Builder

def defaultRootStub : String := "Schema"

/-- What the name of the root type is made from: the option, or else the title. -/
def rootStub (options : Options) (root : Option Schema) : String :=
  (options.rootName.or (root.bind (·.keywords.title))).getD defaultRootStub

/-- The name of a type under given options. -/
def typeNameUnder (options : Options) (stub : String) : String :=
  Naming.typeName options.typeLead stub options.naming

/-- A builder for the documents and options of a run. -/
def new (scope : Scope) : Builder where
  scope := scope
  rootName := typeNameUnder scope.options (rootStub scope.options scope.registry.root?)

def options (b : Builder) : Options := b.scope.options

def typeName (b : Builder) (stub : String) : String := typeNameUnder b.options stub

def field (b : Builder) (spec : FieldSpec) (name : String) (description : Option String) : Field :=
  spec.toField name b.options.naming description

/-- The name of the type that a reference stands for. References to a whole document without a file
name stand for the root. -/
def referenceName (b : Builder) (stub : String) : String :=
  if stub.isEmpty then b.rootName else b.typeName stub

def record (d : Diagnostic) : BuildM Unit :=
  modify fun p => { p with diagnostics := p.diagnostics ++ [d] }

def warn (code path message : String) : BuildM Unit := record ⟨.warning, code, path, message⟩

def note (code path message : String) : BuildM Unit := record ⟨.info, code, path, message⟩

def collide (path message : String) : BuildM Unit := warn "name-collision" path message

/-- Requests a type. If its name was requested before, the schemas have to be equal. -/
def request (r : Request) : BuildM TypeRef := do
  let progress ← get
  match progress.requested.lookup r.name with
  | some known =>
    if !(known == r.schema) then
      collide r.path s!"type \"{r.name}\" already stands for a different schema"
  | none =>
    if progress.catalog.hasType r.name then
      collide r.path s!"type name \"{r.name}\" is already taken"
    else
      set { progress with
        requested := progress.requested ++ [(r.name, r.schema)]
        pending := progress.pending ++ [r] }
  return .named r.name

/-- The normal form of a schema that was not part of the root. -/
def normalForm (b : Builder) (schema : Schema) : Outcome Schema := schema.normalize b.scope

end Builder

end SchemaCatalog
