import SchemaCatalog.Json.Basic

namespace SchemaCatalog

/-- The `type` keyword: one type name, or a list of them. -/
inductive TypeKeyword where
  | single (name : String)
  | several (names : List String)
deriving DecidableEq, Repr, Inhabited

namespace TypeKeyword

/-- The type name if exactly one is declared; `null` next to one other type does not count. -/
def single? : TypeKeyword → Option String
  | .single name => some name
  | .several names =>
    match names.filter (· != "null") with
    | [name] => some name
    | _ => none

def contains : TypeKeyword → String → Bool
  | .single n, name => n == name
  | .several names, name => names.contains name

end TypeKeyword

/-- The `items` keyword: a schema for each position, or one for all items. -/
inductive Items (α : Type) where
  | tuple (schemas : List α)
  | single (schema : α)
deriving Repr

/-- The schema that stands for the items. A tuple contributes its first position only. -/
def Items.first? {α : Type} : Items α → Option α
  | .single schema => some schema
  | .tuple schemas => schemas.head?

/-- The `additionalProperties` keyword: a verdict on undeclared keys, or a schema for them. -/
inductive Additional (α : Type) where
  | allowed (verdict : Bool)
  | schema (schema : α)
deriving Repr

/-- The keywords of a node that hold no schemas. -/
structure Keywords where
  id : Option String := none
  reference : Option String := none
  title : Option String := none
  description : Option String := none
  format : Option String := none
  pattern : Option String := none
  type : Option TypeKeyword := none
  required : Option (List String) := none
  enumeration : Option (List Json) := none
  defaultValue : Option Json := none
  minimum : Option Numeral := none
  maximum : Option Numeral := none
  exclusiveMinimum : Option Json := none
  exclusiveMaximum : Option Json := none
  multipleOf : Option Numeral := none
  minLength : Option Nat := none
  maxLength : Option Nat := none
  minItems : Option Nat := none
  maxItems : Option Nat := none
  uniqueItems : Option Bool := none
  minProperties : Option Nat := none
  maxProperties : Option Nat := none
deriving Repr, Inhabited

/-- A schema node: its own keywords, and the keywords that hold schemas. -/
structure Schema where
  keywords : Keywords := {}
  properties : Option (List (String × Schema)) := none
  patternProperties : Option (List (String × Schema)) := none
  definitions : Option (List (String × Schema)) := none
  items : Option (Items Schema) := none
  additionalProperties : Option (Additional Schema) := none
  allOf : Option (List Schema) := none
  anyOf : Option (List Schema) := none
  oneOf : Option (List Schema) := none
  not : Option Schema := none
deriving Inhabited

namespace Schema

def reference (s : Schema) : Option String := s.keywords.reference

def clearReference (s : Schema) : Schema :=
  { s with keywords := { s.keywords with reference := none } }

def withReference (s : Schema) (reference : String) : Schema :=
  { s with keywords := { s.keywords with reference := some reference } }

def ofReference (reference : String) : Schema := { keywords := { reference := some reference } }

def ofType (name : String) : Schema := { keywords := { type := some (.single name) } }

/-- The single declared type name, if any. -/
def typeName? (s : Schema) : Option String := s.keywords.type.bind TypeKeyword.single?

/-- Whether the schema describes an object: by its type, or, without a `type`, by declaring
properties of some kind. -/
def isObject (s : Schema) : Bool :=
  match s.typeName? with
  | some name => name == "object"
  | none =>
    s.keywords.type.isNone &&
      (s.properties.isSome || s.patternProperties.isSome || s.additionalProperties.isSome)

end Schema

end SchemaCatalog
