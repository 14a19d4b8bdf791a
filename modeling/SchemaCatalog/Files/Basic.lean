import SchemaCatalog.Entries
import SchemaCatalog.Files.Path

namespace SchemaCatalog

/-- What stands at a place of the tree. -/
inductive FileNode where
  | folder
  | file (content : ByteArray)
deriving Inhabited

/-- A tree of files: what stands at each place. The places of folders are listed as well. -/
structure Files where
  nodes : List (List String × FileNode) := []
deriving Inhabited

/-- What reading a path gives. -/
inductive FileAnswer where
  | missing
  /-- A folder, or a file that is no text. -/
  | unreadable
  | text (content : String)
deriving DecidableEq, Repr, Inhabited

namespace Files

/-- Whether a place is a folder in any tree: the folder of the run, one that holds it, or the top.
-/
def isFixedFolder (place : List String) : Bool := place.all (· == "..") || place == ["/"]

def node? (files : Files) (place : List String) : Option FileNode :=
  if isFixedFolder place then some .folder else files.nodes.lookup place

def putNew (files : Files) (place : List String) (node : FileNode) : Files :=
  if (files.node? place).isSome then files else ⟨files.nodes ++ [(place, node)]⟩

/-- The place that steps lead to from a place. Steps back may lead above the folder of the run, but
not above the top. -/
def placeFrom (place : List String) : List String → List String
  | [] => place
  | ".." :: rest =>
    match place.getLast? with
    | none => placeFrom [".."] rest
    | some ".." => placeFrom (place ++ [".."]) rest
    | some "/" => placeFrom place rest
    | some _ => placeFrom place.dropLast rest
  | step :: rest => placeFrom (place ++ [step]) rest

/-- Makes the folders on the way along steps. -/
def putFolders (files : Files) (place : List String) : List String → Files
  | [] => files
  | [_] => files
  | step :: rest =>
    let place := placeFrom place [step]
    putFolders (files.putNew place .folder) place rest

/-- The tree with a node at a path, and with the folders that lead there. -/
def put (files : Files) (path : String) (node : FileNode) : Files :=
  let steps := Path.steps path
  let place := placeFrom [] steps
  let files := files.putFolders [] steps
  ⟨files.nodes.filter (fun entry => entry.1 != place) ++ [(place, node)]⟩

/-- What stands at the end of a path. -/
def follow (files : Files) (place : List String) : List String → Option FileNode
  | [] => files.node? place
  | step :: rest =>
    match files.node? place with
    | some .folder => follow files (placeFrom place [step]) rest
    | _ => none

def at? (files : Files) (path : String) : Option FileNode :=
  if path.isEmpty then none
  else
    match files.follow [] (Path.steps path) with
    | some (.file content) => if Path.endsInFolder path then none else some (.file content)
    | other => other

def read (files : Files) (path : String) : FileAnswer :=
  match files.at? path with
  | none => .missing
  | some .folder => .unreadable
  | some (.file content) =>
    match String.fromUTF8? content with
    | some text => .text text
    | none => .unreadable

/-- Why a file cannot be written. -/
inductive WriteFault where
  | noFolder
  | folderIsFile
  | isFolder
deriving DecidableEq, Repr, Inhabited

def WriteFault.message : WriteFault → String
  | .noFolder => "No such file or directory (os error 2)"
  | .folderIsFile => "Not a directory (os error 20)"
  | .isFolder => "Is a directory (os error 21)"

def meetsFile (files : Files) (place : List String) : List String → Bool
  | [] => false
  | step :: rest =>
    match files.node? place with
    | some (.file _) => true
    | some .folder => meetsFile files (placeFrom place [step]) rest
    | none => false

/-- Writes a text to a path, in place of what a file there holds. The folder has to be there. A path
that ends in a slash asks for a folder, whatever its last step leads to; one that ends in a dot has
to lead over a folder to it. -/
def write (files : Files) (path text : String) : Except WriteFault Files :=
  let steps := Path.steps path
  let stored := files.put path (.file text.toUTF8)
  if path.isEmpty then .error .noFolder
  else if files.meetsFile [] steps then .error .folderIsFile
  else
    match files.follow [] steps, files.follow [] steps.dropLast with
    | some .folder, _ => .error .isFolder
    | some (.file _), _ =>
      if Path.endsInDot path then .error .folderIsFile
      else if Path.endsInFolder path then .error .isFolder
      else .ok stored
    | none, some .folder =>
      if Path.endsInDot path then .error .noFolder
      else if Path.endsInFolder path then .error .isFolder
      else .ok stored
    | none, _ => .error .noFolder

end Files

end SchemaCatalog
