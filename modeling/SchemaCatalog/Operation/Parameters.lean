import SchemaCatalog.Dialect
import SchemaCatalog.Json.Fragment

namespace SchemaCatalog.Operation

/-- What identifies a parameter: its name and its place. -/
def parameterKey (parameter : Json) : Option String × Option String :=
  (parameter.stringMember? "name", parameter.stringMember? "in")

/-- Replaces the parameter with the same key, or adds one at the end. -/
def putParameter (parameter : Json) : List Json → List Json
  | [] => [parameter]
  | other :: rest =>
    if parameterKey other == parameterKey parameter then parameter :: rest
    else other :: putParameter parameter rest

/-- Puts parameters in order, each followed to where it is defined. -/
def mergeInto (document : Json) : List Json → List Json → Outcome (List Json)
  | merged, [] => .ok merged
  | merged, parameter :: rest => do
    mergeInto document (putParameter (← document.follow parameter) merged) rest

def listMember (value : Json) (name : String) : List Json :=
  ((value.member? name).bind Json.items?).getD []

/-- The shared parameters overridden by those of the operation. -/
def mergedParameters (document operation : Json) (shared : List Json) : Outcome (List Json) :=
  mergeInto document [] (shared ++ listMember operation "parameters")

/-- The members of a parameter that describe its value where it has no schema of its own. -/
def schemaMembers : List String :=
  ["type", "format", "items", "enum", "default", "description", "pattern", "minimum", "maximum",
    "exclusiveMinimum", "exclusiveMaximum", "minLength", "maxLength", "minItems", "maxItems",
    "uniqueItems", "multipleOf"]

/-- The schema that a parameter describes by its own members. -/
def inlineSchema (parameter : Json) : Outcome Schema :=
  readSchema <| .object <| schemaMembers.filterMap fun name =>
    (parameter.member? name).map fun value => (name, value)

/-- The schema under a member, if there is one. -/
def schemaMember (value : Json) (name : String) : Outcome (Option Schema) :=
  match value.member? name with
  | none => .ok none
  | some schema => do return some (← readSchema schema)

/-- The schema of the first media type of some content. -/
def mediaSchema (value : Json) : Outcome (Option Schema) :=
  match (value.member? "content").bind Json.members? with
  | some ((_, media) :: _) => schemaMember media "schema"
  | _ => .ok none

/-- The schema of a parameter that has one of its own. -/
def ownSchema (parameter : Json) : Outcome (Option Schema) := do
  match ← schemaMember parameter "schema" with
  | some schema => return some schema
  | none => mediaSchema parameter

def parameterSchema (dialect : Dialect) (parameter : Json) : Outcome (Option Schema) :=
  let isBody := parameter.stringMember? "in" == some "body"
  if dialect = .openApi3 || (dialect = .swagger2 && isBody) then
    ownSchema parameter
  else do return some (← inlineSchema parameter)

def responseSchema (dialect : Dialect) (response : Json) : Outcome (Option Schema) :=
  match dialect with
  | .openApi3 => mediaSchema response
  | _ => schemaMember response "schema"

end SchemaCatalog.Operation
