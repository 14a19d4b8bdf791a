import SchemaCatalog.Dialect
import SchemaCatalog.Files.Basic
import SchemaCatalog.Json.Fragment
import SchemaCatalog.Registry
import SchemaCatalog.Yaml.Reader

namespace SchemaCatalog

/-- Whether a source is the address of a remote document. -/
def isRemote (source : String) : Bool :=
  "http://".toList.isPrefixOf source.toList || "https://".toList.isPrefixOf source.toList

def endsIn (text ending : String) : Bool := ending.toList.isSuffixOf text.toList

def holdsYaml (path : String) : Bool :=
  let path := path.map Char.toLower
  endsIn path ".yaml" || endsIn path ".yml"

def readYaml (text : String) : Outcome Json :=
  (Yaml.parse text).mapError fun fault => .malformedYaml fault.message

def readContent (path content : String) : Outcome Json :=
  if holdsYaml path then readYaml content else readJson content

/-- Where a document comes from. -/
inductive Origin where
  | file (path : String)
  | remote (address : String)
deriving DecidableEq, Repr, Inhabited

def Origin.ofText (source : String) : Origin :=
  if isRemote source then .remote source else .file source

/-- What requests for remote documents give: the body of the answer, or the error that ends the run.
Answers come from finitely many addresses, so that documents cannot refer to each other without an
end. -/
structure Remote where
  fetch : String → Outcome String
  addresses : List String
  answers_listed : ∀ {address body : String}, fetch address = .ok body → address ∈ addresses

namespace Remote

def load (remote : Remote) (address : String) : Outcome Json := do
  readContent address (← remote.fetch address)

/-- The documents that remote documents refer to. -/
def referencedDocuments (remote : Remote) : List String :=
  remote.addresses.flatMap fun address =>
    match remote.load address with
    | .ok document => document.referencedDocuments
    | .error _ => []

end Remote

namespace Files

def text (files : Files) (path : String) : Outcome String :=
  match files.read path with
  | .missing => .error (.fileNotFound path)
  | .unreadable => .error (.unreadableFile path)
  | .text content => .ok content

def load (files : Files) (path : String) : Outcome Json := do
  readContent path (← files.text path)

/-- Loads a document. Where no requests can be made, remote documents are not found. -/
def loadFrom (files : Files) (remote : Option Remote) : Origin → Outcome Json
  | .file path => files.load path
  | .remote address =>
    match remote with
    | some remote => remote.load address
    | none => .error (.fileNotFound address)

def loadSource (files : Files) (source : String) (remote : Option Remote := none) : Outcome Json :=
  files.loadFrom remote (.ofText source)

def loadOptions (files : Files) (path : String) : Outcome Options := do
  readOptions (← files.text path)

def referencedDocuments (files : Files) : List String :=
  files.nodes.flatMap fun (place, node) =>
    match node with
    | .folder => []
    | .file content =>
      match readContent (place.getLast?.getD "") ((String.fromUTF8? content).getD "") with
      | .ok document => document.referencedDocuments
      | .error _ => []

/-- The documents that files and remote documents refer to: with those a root refers to, all that
can be loaded. -/
def linkedDocuments (files : Files) (remote : Option Remote) : List String :=
  files.referencedDocuments ++ (remote.map Remote.referencedDocuments).getD []

end Files

/-- Where the document of an id is loaded from, and the folder for its own references. An address is
not taken relative to the folder, and leaves it as it is. -/
def locateDocument (folder id : String) : Origin × String :=
  if isRemote id then (.remote id, folder)
  else
    let path := Path.join folder id
    (.file path, (Path.parent path).getD folder)

/-- Loads the documents of a list of ids, and after each those that it refers to in turn. Ids that
are registered are passed over. The number of documents loaded comes second. -/
def collectFrom (load : Origin → Outcome Json) :
    Nat → String → List String → Registry → Outcome (Registry × Nat)
  | 0, _, _, registry => .ok (registry, 0)
  | fuel + 1, folder, ids, registry =>
    ids.foldlM (fun (registry, loaded) id => do
      if registry.contains id then return (registry, loaded)
      let (origin, inner) := locateDocument folder id
      let document ← load origin
      let root ← rootSchema (Dialect.detect document) document
      let (registry, more) ←
        collectFrom load fuel inner document.referencedDocuments (registry.register id root)
      return (registry, loaded + 1 + more)) (registry, 0)

/-- Registers every document that a document refers to, directly or through others, read from files
relative to a folder or fetched. The number of documents loaded comes second. -/
def collectDocuments (files : Files) (document : Json) (folder : String) (registry : Registry)
    (remote : Option Remote := none) : Outcome (Registry × Nat) :=
  let ids := document.referencedDocuments
  let rounds := ids.length + (files.linkedDocuments remote).length + 1
  collectFrom (files.loadFrom remote) rounds folder ids registry

end SchemaCatalog
