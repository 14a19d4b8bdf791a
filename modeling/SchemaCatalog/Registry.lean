import SchemaCatalog.Error
import SchemaCatalog.Reference.Basic

namespace SchemaCatalog

/-- Documents by id, in order of registration. -/
structure Registry where
  documents : Entries Schema := []
deriving Inhabited

namespace Registry

def get? (r : Registry) (id : String) : Option Schema := r.documents.lookup id

def contains (r : Registry) (id : String) : Bool := (r.get? id).isSome

def root? (r : Registry) : Option Schema := r.get? Reference.rootDocument

def ids (r : Registry) : List String := r.documents.keys

def size (r : Registry) : Nat := r.documents.length

/-- Registers a document unless its id is taken. -/
def register (r : Registry) (id : String) (document : Schema) : Registry :=
  if r.contains id then r else ⟨r.documents ++ [(id, document)]⟩

/-- Registers the root document, first under the id it declares. -/
def registerRoot (r : Registry) (document : Schema) : Registry :=
  let r := match document.keywords.id with
    | some id => r.register id document
    | none => r
  r.register Reference.rootDocument document

def entry? (table : Option (Entries Schema)) (segment : String) : Option Schema :=
  (table.getD []).lookup (Reference.unescape segment)

/-- The schema of a document that a pointer names: the document, a definition or a property. -/
def pointee? (document : Schema) : List String → Option Schema
  | [""] => some document
  | ["", ""] => some document
  | ["", "definitions", key] => entry? document.definitions key
  | ["", "$defs", key] => entry? document.definitions key
  | ["", "properties", key] => entry? document.properties key
  | ["", "components", "schemas", key] => entry? document.definitions key
  | _ => none

def documentOf (reference : Reference) : String :=
  if reference.isLocal then Reference.rootDocument else reference.document

def resolve (r : Registry) (text : String) : Outcome Schema :=
  let reference := Reference.parse text
  let id := documentOf reference
  match r.get? id with
  | none => .error (.unknownDocument id text)
  | some document =>
    match pointee? document reference.segments with
    | some schema => .ok schema
    | none => .error (.unresolvedPointer text none)

end Registry

end SchemaCatalog
