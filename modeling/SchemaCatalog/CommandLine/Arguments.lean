import SchemaCatalog.Naming

namespace SchemaCatalog.CommandLine

/-- What a run is asked to do. -/
inductive Command where
  | model
  | normalize
deriving DecidableEq, Repr, Inhabited

def Command.name : Command → String
  | .model => "model"
  | .normalize => "normalize"

def Command.ofName? : String → Option Command
  | "model" => some .model
  | "normalize" => some .normalize
  | _ => none

/-- How often an option may be given, and whether it has a value. -/
inductive OptionKind where
  | flag
  | single
  | repeated
deriving DecidableEq, Repr

/-- An option of a command. -/
inductive OptionName where
  | config
  | keep
  | output
  | pretty
  | naming
  | patternName
  | lead
  | rootName
  | validate
deriving DecidableEq, Repr, Inhabited

namespace OptionName

def spelling : OptionName → String
  | .config => "config"
  | .keep => "keep"
  | .output => "output"
  | .pretty => "pretty"
  | .naming => "naming"
  | .patternName => "pattern-name"
  | .lead => "prefix"
  | .rootName => "root-name"
  | .validate => "validate"

def kind : OptionName → OptionKind
  | .pretty => .flag
  | .validate => .flag
  | .keep => .repeated
  | .patternName => .repeated
  | _ => .single

def ofCommand : Command → List OptionName
  | .model =>
    [.config, .keep, .output, .pretty, .naming, .patternName, .lead, .rootName, .validate]
  | .normalize => [.config, .keep, .output, .pretty]

/-- The pattern and name in a value, which the last `=` separates. Neither may be empty. -/
def patternAndName? (value : String) : Option (String × String) :=
  let backwards := value.toList.reverse
  let name := backwards.takeWhile (· != '=')
  let pattern := backwards.drop (name.length + 1)
  if name.isEmpty || pattern.isEmpty then none
  else some (String.ofList pattern.reverse, String.ofList name.reverse)

def accepts (option : OptionName) (value : String) : Bool :=
  match option with
  | .config => !value.isEmpty
  | .output => !value.isEmpty
  | .naming => (NamingConvention.ofName? value).isSome
  | .patternName => (patternAndName? value).isSome
  | _ => true

end OptionName

/-- Why arguments make no sense. -/
inductive Misuse where
  | noCommand
  | unknownCommand (text : String)
  | unexpected (text : String)
  | noSource
  | noValue (option : OptionName)
  | needlessValue (option : OptionName)
  | badValue (option : OptionName) (value : String)
  | givenTwice (option : OptionName)
deriving DecidableEq, Repr, Inhabited

def Misuse.message : Misuse → String
  | .noCommand => "a command is required"
  | .unknownCommand text => s!"unrecognized command '{text}'"
  | .unexpected text => s!"unexpected argument '{text}' found"
  | .noSource => "a source is required"
  | .noValue option => s!"a value is required for '--{option.spelling}'"
  | .needlessValue option => s!"no value is allowed for '--{option.spelling}'"
  | .badValue option value => s!"invalid value '{value}' for '--{option.spelling}'"
  | .givenTwice option => s!"the argument '--{option.spelling}' cannot be used multiple times"

/-- What arguments ask for. -/
inductive Invocation where
  /-- Information about the whole program or a command. -/
  | help (command : Option Command)
  | helpOnHelp
  | version
  | run (command : Command) (source : String) (values : List (OptionName × String))
deriving DecidableEq, Repr, Inhabited

/-- The arguments of a command read so far, values last first. -/
structure Given where
  source : Option String := none
  values : List (OptionName × String) := []

namespace Given

/-- Adds an argument that is no option. -/
def addSource (given : Given) (text : String) : Except Misuse Given :=
  match given.source with
  | none => .ok { given with source := some text }
  | some _ => .error (.unexpected text)

def addValue (given : Given) (option : OptionName) (value : String) : Except Misuse Given :=
  if option.kind != .repeated && given.values.any (·.1 == option) then .error (.givenTwice option)
  else if !option.accepts value then .error (.badValue option value)
  else .ok { given with values := (option, value) :: given.values }

def invocation (given : Given) (command : Command) : Except Misuse Invocation :=
  match given.source with
  | none => .error .noSource
  | some source => .ok (.run command source given.values.reverse)

end Given

/-- Whether an argument is no option. A lone hyphen is none. -/
def isPlain (text : String) : Bool := text == "-" || text.toList.head? != some '-'

/-- An argument that starts with two hyphens, as name and value. -/
def longOption? (text : String) : Option (String × Option String) :=
  match text.toList with
  | '-' :: '-' :: body =>
    let name := body.takeWhile (· != '=')
    let value :=
      if name.length < body.length then some (String.ofList (body.drop (name.length + 1))) else none
    some (String.ofList name, value)
  | _ => none

def asksForHelp (text : String) : Bool :=
  text == "--help" || "-h".toList.isPrefixOf text.toList

def readCommand (command : Command) : List String → Given → Except Misuse Invocation
  | [], given => given.invocation command
  | "--" :: rest, given => do (← rest.foldlM Given.addSource given).invocation command
  | text :: rest, given =>
    if isPlain text then do readCommand command rest (← given.addSource text)
    else if asksForHelp text then .ok (.help (some command))
    else
      match longOption? text with
      | none => .error (.unexpected text)
      | some (name, attached) =>
        match (OptionName.ofCommand command).find? (·.spelling == name), attached with
        | none, _ => .error (.unexpected text)
        | some option, some value =>
          if option.kind == .flag then .error (.needlessValue option)
          else do readCommand command rest (← given.addValue option value)
        | some option, none =>
          if option.kind == .flag then do readCommand command rest (← given.addValue option "")
          else
            match rest with
            | [] => .error (.noValue option)
            | value :: rest =>
              if isPlain value then do readCommand command rest (← given.addValue option value)
              else .error (.noValue option)

def readHelp : List String → Except Misuse Invocation
  | [] => .ok (.help none)
  | [text] =>
    match Command.ofName? text with
    | some command => .ok (.help (some command))
    | none => if text == "help" then .ok .helpOnHelp else .error (.unknownCommand text)
  | _ :: text :: _ => .error (.unknownCommand text)

def readArguments : List String → Except Misuse Invocation
  | [] => .error .noCommand
  | text :: rest =>
    if isPlain text then
      match Command.ofName? text with
      | some command => readCommand command rest {}
      | none => if text == "help" then readHelp rest else .error (.unknownCommand text)
    else if asksForHelp text then .ok (.help none)
    else if text == "--version" || "-V".toList.isPrefixOf text.toList then .ok .version
    else .error (.unexpected text)

end SchemaCatalog.CommandLine
