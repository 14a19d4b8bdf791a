import SchemaCatalog.Text.Split

namespace SchemaCatalog.Path

/-- A path below another. An absolute path stands for itself. -/
def join (base path : String) : String :=
  if path.toList.head? == some '/' || base.isEmpty then path
  else if base.toList.getLast? == some '/' then base ++ path
  else base ++ "/" ++ path

def startsHere : List Char → Bool
  | ['.'] => true
  | '.' :: '/' :: _ => true
  | _ => false

/-- The length of the part of a path that is never cut: a leading slash or dot. -/
def leadLength (path : List Char) : Nat :=
  if path.head? == some '/' || startsHere path then 1 else 0

/-- Drops parts at the end that name nothing, in a path given last character first. -/
def trimEnd (lead : Nat) : Nat → List Char → List Char
  | 0, path => path
  | fuel + 1, path =>
    if path.length ≤ lead then path
    else
      let body := path.take (path.length - lead)
      let part := body.takeWhile (· != '/')
      if part == [] || part == ['.'] then
        trimEnd lead fuel (path.drop (part.length + if part.length < body.length then 1 else 0))
      else path

/-- The path of the folder of a file or folder; nothing for the empty path and the top. -/
def parent (path : String) : Option String :=
  let chars := path.toList
  let lead := leadLength chars
  let trimmed := trimEnd lead chars.length chars.reverse
  if trimmed.length ≤ lead then
    if startsHere chars then some "" else none
  else
    let body := trimmed.take (trimmed.length - lead)
    let part := body.takeWhile (· != '/')
    let rest := trimmed.drop (part.length + if part.length < body.length then 1 else 0)
    some (String.ofList (trimEnd lead chars.length rest).reverse)

/-- A path as steps. An absolute path starts with a step to the top, which is written as a slash. -/
def steps (path : String) : List String :=
  let parts := (Text.splitString '/' path).filter fun part => !part.isEmpty && part != "."
  if path.toList.head? == some '/' then "/" :: parts else parts

def endsInFolder (path : String) : Bool :=
  match (Text.splitString '/' path).getLast? with
  | some last => last.isEmpty || last == "."
  | none => false

def endsInDot (path : String) : Bool := (Text.splitString '/' path).getLast? == some "."

end SchemaCatalog.Path
