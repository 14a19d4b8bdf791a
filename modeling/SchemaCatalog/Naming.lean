import SchemaCatalog.Text.CamelCase

namespace SchemaCatalog

/-- How names are spelled. -/
inductive NamingConvention where
  /-- Camel case: types start with a capital, fields do not. -/
  | json
  /-- Fields keep their name, types only get a leading capital. -/
  | proto
deriving DecidableEq, Repr, Inhabited

namespace NamingConvention

def name : NamingConvention → String
  | .json => "json"
  | .proto => "proto"

def ofName? : String → Option NamingConvention
  | "json" => some .json
  | "proto" => some .proto
  | _ => none

theorem ofName?_name (convention : NamingConvention) :
    ofName? convention.name = some convention := by
  cases convention <;> rfl

end NamingConvention

namespace Naming

/-- The text with its first character in upper case. -/
def capitalize (text : String) : String :=
  match text.toList with
  | [] => ""
  | c :: rest => String.ofList (Text.uppercase c ++ rest)

/-- The text with `_` for every character that cannot stand in an identifier. -/
def identifier (text : String) : String :=
  text.map fun c => if Text.isAlphanumeric c || c == '_' then c else '_'

/-- The name of a type, from a leading text and a stub such as a property or definition name. -/
def typeName (lead stub : String) (convention : NamingConvention) : String :=
  lead ++ match convention with
    | .json => Text.upperCamel stub
    | .proto => capitalize (identifier stub)

/-- Keeps a camel-case name apart from numbers and from nothing. -/
def guardField (camel : String) : String :=
  match camel.toList with
  | [] => "_"
  | c :: _ => if c.isDigit then "_" ++ camel else camel

/-- The identifier of a field, from its name in the source. -/
def fieldName (name : String) (convention : NamingConvention) : String :=
  match convention with
  | .json => guardField (Text.lowerCamel name)
  | .proto => name

/-- The name of a method that declares none, from its verb and path. -/
def methodName (verb path : String) : String := Text.upperCamel s!"{verb} {path}"

end Naming

end SchemaCatalog
