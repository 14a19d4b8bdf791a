import SchemaCatalog.Catalog.Encoding
import SchemaCatalog.CommandLine.Help
import SchemaCatalog.Compilation
import SchemaCatalog.Schema.Encoding

namespace SchemaCatalog.CommandLine

/-- What a run ends with. -/
structure Report where
  code : UInt32 := 0
  output : String := ""
  errors : String := ""
deriving DecidableEq, Repr, Inhabited

def Report.ofMisuse (misuse : Misuse) : Report := { code := 2, errors := misuseText misuse }

def Report.ofError (error : CatalogError) : Report :=
  { code := error.exitCode, errors := s!"Error: {error.message}\n" }

/-- What a run has to say: remarks, and a text for a file or, without a path, to be printed. -/
structure Response where
  remarks : List Diagnostic := []
  text : String
  path : Option String := none

namespace Response

def remarkLines (response : Response) : String :=
  String.join (response.remarks.map fun remark => remark.render ++ "\n")

def report (response : Response) : Report :=
  { output := if response.path.isNone then response.text ++ "\n" else ""
    errors := response.remarkLines }

def unwritten (response : Response) (path reason : String) : Report :=
  { code := 3, errors := response.remarkLines ++ s!"Error writing to {path}: {reason}\n" }

def deliver (response : Response) (files : Files) : Report × Files :=
  match response.path with
  | none => (response.report, files)
  | some path =>
    match files.write path response.text with
    | .ok files => (response.report, files)
    | .error fault => (response.unwritten path fault.message, files)

end Response

/-- The options in force before any argument. -/
def baseOptions (files : Files) (values : List (OptionName × String)) : Outcome Options :=
  match values.lookup .config with
  | some path => files.loadOptions path
  | none => .ok {}

/-- Carries out an argument on the options of a run. -/
def applyValue (options : Options) (value : OptionName × String) : Options :=
  match value with
  | (.keep, text) => options.keep text
  | (.naming, text) =>
    { options with naming := (NamingConvention.ofName? text).getD options.naming }
  | (.patternName, text) =>
    match OptionName.patternAndName? text with
    | some (pattern, name) => options.namePattern pattern name
    | none => options
  | (.lead, text) => { options with typeLead := text }
  | (.rootName, text) => { options with rootName := some text }
  | (.validate, _) => { options with validate := true }
  | _ => options

def sourceFolder (source : String) : String := if isRemote source then "." else folderOf source

def printed (values : List (OptionName × String)) (value : Json) : String :=
  if (values.lookup .pretty).isSome then value.renderPretty else value.render

/-- What a command answers on given files. -/
def answer (files : Files) (command : Command) (source : String)
    (values : List (OptionName × String)) (remote : Option Remote := none) :
    Outcome Response := do
  let options := values.foldl applyValue (← baseOptions files values)
  let document ← files.loadSource source remote
  let setup : Setup :=
    { options := options, folder := some (sourceFolder source), files := files, remote := remote }
  let path := values.lookup .output
  match command with
  | .model =>
    let compilation ← setup.compile document
    let text := printed values compilation.catalog.encode
    return { remarks := compilation.diagnostics, text := text, path := path }
  | .normalize =>
    let root ← setup.normalize document
    return { text := printed values root.encode, path := path }

/-- What an invocation leads to on given files: a report at once, or a response to deliver. -/
def respond (files : Files) (invocation : Invocation) (remote : Option Remote := none) :
    Outcome (Report ⊕ Response) :=
  match invocation with
  | .help none => .ok (.inl { output := programHelp })
  | .help (some command) => .ok (.inl { output := commandHelp command })
  | .helpOnHelp => .ok (.inl { output := helpHelp })
  | .version => .ok (.inl { output := versionLine })
  | .run command source values => (answer files command source values remote).map .inr

/-- Carries out an invocation: its report, and the files after it. -/
def run (files : Files) (invocation : Invocation) (remote : Option Remote := none) :
    Report × Files :=
  match respond files invocation remote with
  | .error error => (.ofError error, files)
  | .ok (.inl report) => (report, files)
  | .ok (.inr response) => response.deliver files

end SchemaCatalog.CommandLine
