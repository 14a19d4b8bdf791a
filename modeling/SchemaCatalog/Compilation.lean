import SchemaCatalog.Loading
import SchemaCatalog.MetaSchema.Check
import SchemaCatalog.Operation.Methods

namespace SchemaCatalog

/-- What a run is given besides the document. -/
structure Setup where
  options : Options := {}
  /-- Documents that references may lead into, by id. -/
  documents : List (String × Schema) := []
  /-- The folder from which further documents are read, if any may be. -/
  folder : Option String := none
  files : Files := {}
  /-- What gives remote documents, if any can be requested. -/
  remote : Option Remote := none

/-- A catalog with remarks on what it leaves out. -/
structure Compilation where
  catalog : Catalog
  diagnostics : List Diagnostic
  dialect : Dialect

namespace Setup

def registry (setup : Setup) (document : Json) (dialect : Dialect) : Outcome Registry := do
  if setup.options.validate then MetaSchema.checkDocument document dialect
  let root ← rootSchema dialect document
  let registry := setup.documents.foldl (fun registry (id, schema) => registry.register id schema)
    (({} : Registry).registerRoot root)
  match setup.folder with
  | none => return registry
  | some folder =>
    return (← collectDocuments setup.files document folder registry setup.remote).1

def scope (setup : Setup) (document : Json) (dialect : Dialect) : Outcome Scope := do
  return ⟨← setup.registry document dialect, setup.options⟩

def normalize (setup : Setup) (document : Json) : Outcome Schema := do
  let dialect := Dialect.detect document
  let scope ← setup.scope document dialect
  (← rootSchema dialect document).normalize scope

/-- Whether a root schema describes values, and does not only hold definitions. -/
def describesValue (root : Schema) : Bool :=
  !Schema.isEmpty { root with
    keywords := { root.keywords with id := none, title := none, description := none }
    definitions := none }

/-- Builds the types and methods of a document whose root is in normal form. -/
def build (b : Builder) (document : Json) (dialect : Dialect) (root : Schema) : BuildM Unit := do
  if dialect == .jsonSchema && describesValue root then
    let _ ← b.requestRoot root
  b.requestDefinitions (root.definitions.getD [])
  b.drain
  if dialect.hasOperations then
    let _ ← Operation.addMethods b document dialect
    b.drain

def compile (setup : Setup) (document : Json) : Outcome Compilation := do
  let dialect := Dialect.detect document
  let scope ← setup.scope document dialect
  let root ← (← rootSchema dialect document).normalize scope
  let (_, progress) ← (build (.new scope) document dialect root).run {}
  return ⟨progress.catalog, progress.diagnostics, dialect⟩

end Setup

/-- The folder of a document that is a file, from which those it refers to are read. -/
def folderOf (path : String) : String := (Path.parent path).getD "."

/-- The catalog of a document in a file. -/
def compileFile (files : Files) (path : String) (options : Options)
    (remote : Option Remote := none) : Outcome Compilation := do
  let document ← files.load path
  let setup : Setup :=
    { options := options, folder := some (folderOf path), files := files, remote := remote }
  setup.compile document

end SchemaCatalog
