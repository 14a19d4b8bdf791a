import SchemaCatalog.Options.Basic
import SchemaCatalog.Schema.Fault
import SchemaCatalog.Json.Reader

namespace SchemaCatalog

/-- What can be wrong with the text of options. -/
inductive OptionsFault where
  | malformed (fault : Json.Fault)
  | unknownField (name : String)
  | repeatedField (name : String)
  | unknownConvention (name : String)
  | unexpected (found : Json) (expected : String)
  | negative (found : Int)
  | other (message : String)
deriving Repr, Inhabited

/-- An option, as a member of the object. -/
inductive OptionField where
  | naming
  | kept
  | patternNames
  | typeLead
  | rootName
  | maxPasses
  | validate
deriving DecidableEq, Repr

namespace OptionField

def all : List OptionField :=
  [.naming, .kept, .patternNames, .typeLead, .rootName, .maxPasses, .validate]

/-- The name an option is written under. -/
def name : OptionField → String
  | .naming => "namingConvention"
  | .kept => "excludedRefsKeptAsClasses"
  | .patternNames => "patternNameTable"
  | .typeLead => "typePrefix"
  | .rootName => "rootName"
  | .maxPasses => "maxPasses"
  | .validate => "validateSchema"

def ofName? (text : String) : Option OptionField := all.find? (·.name == text)

end OptionField

def OptionsFault.message : OptionsFault → String
  | .malformed fault => fault.message
  | .unknownField name =>
    let known := ", ".intercalate (OptionField.all.map fun field => s!"`{field.name}`")
    s!"unknown field `{name}`, expected one of {known}"
  | .repeatedField name => s!"duplicate field `{name}`"
  | .unknownConvention name => s!"unknown variant `{name}`, expected `json` or `proto`"
  | .unexpected found expected => s!"invalid type: {found.describe}, expected {expected}"
  | .negative found => s!"invalid value: integer `{found}`, expected usize"
  | .other message => message

namespace Options

open Json (Event Located Failure Cursor)

/-- A fault and the byte offset it is reported at. -/
structure Misread where
  fault : OptionsFault
  offset : Nat
deriving Repr

/-- The events still to be read, and the text they come from. -/
structure Source where
  text : String
  events : List Located
  failure : Option Failure
  /-- The offset after the event read last. -/
  last : Nat

namespace Source

def cursor (src : Source) (offset : Nat) : Cursor :=
  ⟨go src.text.toList offset, offset⟩
where
  /-- Drops characters that cover `left` bytes. -/
  go : List Char → Nat → List Char
    | [], _ => []
    | c :: rest, left => if left = 0 then c :: rest else go rest (left - c.utf8Size)

end Source

abbrev Reader := StateT Source (Except Misread)

namespace Reader

def fail {α : Type} (fault : OptionsFault) (offset : Nat) : Reader α := throw ⟨fault, offset⟩

def failText {α : Type} (failure : Failure) : Reader α :=
  fail (.malformed failure.fault) failure.offset

/-- The next event, left in place. -/
def peek : Reader Located := do
  let src ← get
  match src.events, src.failure with
  | event :: _, _ => return event
  | [], some failure => failText failure
  | [], none => fail (.malformed .endInValue) src.last

def next : Reader Located := do
  let event ← peek
  modify fun src => { src with events := src.events.tail, last := event.stop }
  return event

/-- Refuses an event where something else was expected. -/
def refuse {α : Type} (event : Located) (expected : String) : Reader α :=
  match event.event with
  | .scalar value => fail (.unexpected value expected) event.stop
  | .beginArray => fail (.unexpected (.array []) expected) event.start
  | _ => fail (.unexpected (.object []) expected) event.start

def text : Reader String := do
  let event ← next
  match event.event with
  | .scalar (.string s) => return s
  | _ => refuse event "a string"

/-- A text, or nothing for `null`. -/
def optionalText : Reader (Option String) := do
  match (← peek).event with
  | .scalar .null => do
    let _ ← next
    return none
  | _ => return some (← text)

def truth : Reader Bool := do
  let event ← next
  match event.event with
  | .scalar (.bool b) => return b
  | _ => refuse event "a boolean"

def count : Reader Nat := do
  let event ← next
  match event.event with
  | .scalar (.number (.integer n)) =>
    if n < 0 then fail (.negative n) event.stop else return n.toNat
  | _ => refuse event "usize"

/-- The texts of an array that is open. -/
def textItems : Nat → List String → Reader (List String)
  | 0, done => return done.reverse
  | fuel + 1, done => do
    match (← peek).event with
    | .endArray => do
      let _ ← next
      return done.reverse
    | _ => do textItems fuel ((← text) :: done)

def texts : Reader (List String) := do
  let event ← next
  match event.event with
  | .beginArray => textItems ((← get).events.length + 1) []
  | _ => refuse event "a sequence"

/-- The members of an object of texts that is open. -/
def textMembers : Nat → Entries String → Reader (Entries String)
  | 0, done => return done
  | fuel + 1, done => do
    let event ← next
    match event.event with
    | .key name => do textMembers fuel (done.put name (← text))
    | _ => return done

def textTable : Reader (Entries String) := do
  let event ← next
  match event.event with
  | .beginObject => textMembers ((← get).events.length + 1) []
  | _ => refuse event "a map"

/-- The convention of a name that was just read. -/
def convention (name : String) (offset : Nat) : Reader NamingConvention :=
  match NamingConvention.ofName? name with
  | some c => return c
  | none => fail (.unknownConvention name) offset

/-- A convention given as the only member of an object, with `null` as its value. -/
def conventionMember : Reader NamingConvention := do
  let src ← get
  let cur := (src.cursor src.last).skipBlanks
  match cur.rest with
  | [] => fail (.malformed .endInValue) cur.offset
  | '\x7d' :: _ => fail (.malformed .expectedValue) (cur.offset + 1)
  | '"' :: _ => pure ()
  | _ =>
    match (Json.ScanState.mk cur .value []).value cur with
    | .ok (event, _) => refuse event "variant identifier"
    | .error failure => failText failure
  let key ← next
  let name := match key.event with
    | .key name => name
    | _ => ""
  let c ← convention name key.stop
  let value ← next
  match value.event with
  | .scalar .null => pure ()
  | _ => refuse value "unit"
  let src ← get
  let cur := (src.cursor src.last).skipBlanks
  match cur.rest with
  | '\x7d' :: _ => do
    let _ ← next
    return c
  | [] => fail (.malformed .endInObject) cur.offset
  | _ => fail (.malformed .expectedValue) cur.offset

/-- The offset at which a value starts, after the colon of its member if there is one. -/
def valueStart : Reader Cursor := do
  let src ← get
  let cur := (src.cursor src.last).skipBlanks
  match cur.rest with
  | ':' :: _ => return (cur.advance 1).skipBlanks
  | _ => return cur

/-- A naming convention. Only quotes and braces can start one. -/
def naming : Reader NamingConvention := do
  let src ← get
  match src.events, src.failure with
  | [], some failure => do
    let cur ← valueStart
    match cur.rest with
    | [] | '"' :: _ => failText failure
    | _ =>
      if failure.fault == .expectedColon then failText failure
      else fail (.malformed .expectedValue) (cur.offset + 1)
  | _, _ => do
    let event ← next
    match event.event with
    | .scalar (.string name) => convention name event.stop
    | .beginObject => conventionMember
    | _ => fail (.malformed .expectedValue) (event.start + 1)

def field (o : Options) : OptionField → Reader Options
  | .naming => return { o with naming := ← naming }
  | .kept => return { o with kept := ← texts }
  | .patternNames => return { o with patternNames := ← textTable }
  | .typeLead => return { o with typeLead := ← text }
  | .rootName => return { o with rootName := ← optionalText }
  | .maxPasses => return { o with maxPasses := ← count }
  | .validate => return { o with validate := ← truth }

/-- Where a fault of a member name is reported: after the blanks that follow it, and after the brace
that closes the object if there is one. -/
def afterKey : Reader Nat := do
  let src ← get
  let cur := (src.cursor src.last).skipBlanks
  return match cur.rest with
    | '\x7d' :: _ => cur.offset + 1
    | _ => cur.offset

/-- The members of the options, up to the end of the object. -/
def members : Nat → Options → List OptionField → Reader Options
  | 0, o, _ => return o
  | fuel + 1, o, seen => do
    let event ← next
    match event.event with
    | .key name =>
      match OptionField.ofName? name with
      | none => do fail (.unknownField name) (← afterKey)
      | some f =>
        if seen.contains f then do fail (.repeatedField name) (← afterKey)
        else do members fuel (← field o f) (f :: seen)
    | _ => return o

/-- What has to follow the last option of a sequence. -/
def closeSequence : Reader Unit := do
  let src ← get
  let cur := (src.cursor src.last).skipBlanks
  match cur.rest with
  | [] => fail (.malformed .endInList) cur.offset
  | ']' :: _ => do
    let _ ← next
    return ()
  | ',' :: _ =>
    let cur := (cur.advance 1).skipBlanks
    match cur.rest with
    | ']' :: _ => fail (.malformed .trailingComma) (cur.offset + 1)
    | rest => fail (.malformed .trailingText) (cur.offset + if rest.isEmpty then 0 else 1)
  | _ => fail (.malformed .trailingText) (cur.offset + 1)

/-- The options of a sequence, in written order. -/
def sequence (o : Options) : List OptionField → Reader Options
  | [] => do
    closeSequence
    return o
  | f :: rest => do
    let src ← get
    match src.events with
    | ⟨.endArray, _, _⟩ :: _ => do
      let _ ← next
      return o
    | _ => do sequence (← field o f) rest

def options : Reader Options := do
  let event ← next
  let o ← match event.event with
    | .beginObject => members ((← get).events.length + 1) {} []
    | .beginArray => sequence {} OptionField.all
    | _ => refuse event "struct CompileOptions"
  match (← get).failure with
  | some failure => failText failure
  | none => return o

end Reader

def parse (text : String) : Except Misread Options :=
  let events := Json.Events.ofText text
  (Reader.options.run ⟨text, events.events, events.failure, 0⟩).map Prod.fst

end Options

end SchemaCatalog
