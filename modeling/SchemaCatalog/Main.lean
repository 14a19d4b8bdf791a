import SchemaCatalog.CommandLine.Run

namespace SchemaCatalog.CommandLine

def isDiskFolder (path : String) : IO Bool := do
  try
    let place ← IO.FS.realPath path
    place.isDir
  catch _ => return false

/-- What stands at a path on disk. -/
def diskNode? (path : String) : IO (Option FileNode) := do
  if ← isDiskFolder path then return some .folder
  try
    return some (.file (← IO.FS.readBinFile path))
  catch _ => return none

/-- Writes a text to a file on disk, and says what went wrong if it could not. -/
def writeDisk (path text : String) : IO (Option String) := do
  try
    IO.FS.writeFile path text
    return none
  catch fault => return some (toString fault)

def printReport (report : Report) : IO UInt32 := do
  (← IO.getStderr).putStr report.errors
  (← IO.getStdout).putStr report.output
  return report.code

/-- Carries out an invocation with the files read so far. A file that is missed is read from disk,
and the run is repeated. -/
partial def runOnDisk (files : Files) (invocation : Invocation) : IO UInt32 := do
  match respond files invocation with
  | .ok (.inl report) => printReport report
  | .ok (.inr response) =>
    match response.path with
    | none => printReport response.report
    | some path =>
      match ← writeDisk path response.text with
      | none => printReport response.report
      | some reason => printReport (response.unwritten path reason)
  | .error (.fileNotFound path) =>
    let node ← diskNode? path
    let found := node.elim files (files.put path)
    if !isRemote path && (found.at? path).isSome then runOnDisk found invocation
    else printReport (.ofError (.fileNotFound path))
  | .error error => printReport (.ofError error)

end SchemaCatalog.CommandLine

def main (args : List String) : IO UInt32 :=
  match SchemaCatalog.CommandLine.readArguments args with
  | .error misuse => SchemaCatalog.CommandLine.printReport (.ofMisuse misuse)
  | .ok invocation => SchemaCatalog.CommandLine.runOnDisk {} invocation
