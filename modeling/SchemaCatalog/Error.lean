import SchemaCatalog.Options.Decoding
import SchemaCatalog.Schema.Decoding

namespace SchemaCatalog

/-- Why a run ended without a result. -/
inductive CatalogError where
  | fileNotFound (path : String)
  | unreadableFile (path : String)
  | malformedJson (fault : Json.Fault) (line column : Nat)
  | malformedYaml (reason : String)
  | invalidSchema (fault : SchemaFault)
  | invalidOptions (message : String)
  | unknownDocument (document reference : String)
  /-- The location is the path of the schema that holds the reference, once it is known. -/
  | unresolvedPointer (reference : String) (location : Option String)
  /-- The references that were followed, the last one leading back. -/
  | cyclicReference (chain : List String)
deriving Repr, Inhabited

namespace CatalogError

def message : CatalogError → String
  | .fileNotFound path => s!"file not found: {path}"
  | .unreadableFile path => s!"cannot read {path}: not a readable text file"
  | .malformedJson fault line column =>
    s!"invalid JSON: {fault.message} at line {line} column {column}"
  | .malformedYaml reason => s!"invalid YAML: {reason}"
  | .invalidSchema fault => s!"invalid schema: {fault.message}"
  | .invalidOptions message => s!"invalid configuration: {message}"
  | .unknownDocument document reference =>
    s!"unknown document \"{document}\" referenced by \"{reference}\""
  | .unresolvedPointer reference none => s!"unresolved pointer \"{reference}\""
  | .unresolvedPointer reference (some location) =>
    s!"unresolved pointer \"{reference}\" at {location}"
  | .cyclicReference chain => "cyclic reference: " ++ " -> ".intercalate chain

/-- The exit code of a program that ends with the error: 3 for files, 2 for content. -/
def exitCode : CatalogError → UInt32
  | .fileNotFound _ => 3
  | .unreadableFile _ => 3
  | _ => 2

/-- Says where an unresolved reference stands, unless that is known already. -/
def locate (path : String) : CatalogError → CatalogError
  | .unresolvedPointer reference none => .unresolvedPointer reference (some path)
  | other => other

end CatalogError

abbrev Outcome (α : Type) := Except CatalogError α

/-- Says where an unresolved reference stands if the step fails with one. -/
def Outcome.at {α : Type} (result : Outcome α) (path : String) : Outcome α :=
  result.mapError (CatalogError.locate path)

def readSchema (value : Json) : Outcome Schema :=
  (Schema.decode value).mapError .invalidSchema

def readJson (text : String) : Outcome Json :=
  (Json.parse text).mapError fun failure =>
    let (line, column) := Json.lineColumn text failure.offset
    .malformedJson failure.fault line column

def readOptions (text : String) : Outcome Options :=
  (Options.parse text).mapError fun misread =>
    .invalidOptions (Json.locate text misread.fault.message misread.offset)

end SchemaCatalog
