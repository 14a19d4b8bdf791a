import SchemaCatalog.CommandLine.Arguments

namespace SchemaCatalog.CommandLine

def programName : String := "schema-surface"

def versionLine : String := s!"{programName} 0.1.0\n"

/-- Entries of a help text, in two columns. -/
def columns (entries : List (String × String)) : List String :=
  let width := (entries.map fun (term, _) => term.length).foldl max 0
  entries.map fun (term, text) =>
    "  " ++ term ++ String.ofList (List.replicate (width - term.length + 2) ' ') ++ text

def paragraphs (lines : List String) : String := String.join (lines.map (· ++ "\n"))

namespace Command

def summary : Command → String
  | .model => "Build the surface model (types and methods) of a document"
  | .normalize => "Print the normalized schema tree"

end Command

namespace OptionName

/-- An option as it is written in a command. -/
def term (option : OptionName) : String :=
  let value := match option with
    | .config => " <CONFIG>"
    | .keep => " <KEEP>"
    | .output => " <OUTPUT>"
    | .naming => " <NAMING>"
    | .patternName => " <PATTERN_NAMES>"
    | .lead => " <PREFIX>"
    | .rootName => " <ROOT_NAME>"
    | _ => ""
  "    --" ++ option.spelling ++ value

def summary : OptionName → String
  | .config => "JSON configuration file (flags override its values)"
  | .keep => "Reference to keep as a named type instead of inlining (repeatable)"
  | .output => "Output file (stdout if not specified)"
  | .pretty => "Pretty-print JSON output"
  | .naming => "Naming convention for types and fields [possible values: json, proto]"
  | .patternName => "Field name for a patternProperties pattern (PATTERN=NAME, repeatable)"
  | .lead => "Prefix prepended to every type name"
  | .rootName => "Name of the root type (default: schema title, then \"Schema\")"
  | .validate => "Check the document against the JSON Schema meta-schema first"

end OptionName

def commandHelp (command : Command) : String :=
  let entries := (OptionName.ofCommand command).map (fun option => (option.term, option.summary)) ++
    [("-h, --help", "Print help")]
  paragraphs <|
    [command.summary, "", s!"Usage: {programName} {command.name} [OPTIONS] <SOURCE>", "",
      "Arguments:"] ++
    columns [("<SOURCE>", "Document source: file path or URL (http:// or https://)")] ++
    ["", "Options:"] ++ columns entries

/-- The help on the command that gives help. -/
def helpHelp : String :=
  paragraphs ["Print this message or the help of the given subcommand(s)", "",
    s!"Usage: {programName} help [COMMAND]...", "", "Arguments:",
    "  [COMMAND]...  Print help for the subcommand(s)"]

def programHelp : String :=
  let commands := [Command.model, Command.normalize].map fun command =>
    (command.name, command.summary)
  paragraphs <|
    ["Compile JSON Schema and OpenAPI documents into a flat surface model", "",
      s!"Usage: {programName} <COMMAND>", "", "Commands:"] ++
    columns (commands ++ [("help", "Print this message or the help of the given subcommand(s)")]) ++
    ["", "Options:"] ++
    columns [("-h, --help", "Print help"), ("-V, --version", "Print version")]

def misuseText (misuse : Misuse) : String :=
  paragraphs [s!"error: {misuse.message}", "", "For more information, try '--help'."]

end SchemaCatalog.CommandLine
