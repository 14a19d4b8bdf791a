import SchemaCatalog.Schema.Fault
import SchemaCatalog.Schema.Keyword

namespace SchemaCatalog

/-- A value together with what it means as a schema, as a table of schemas and as a list. -/
structure Reading where
  value : Json
  schema : Except SchemaFault Schema
  table : Except SchemaFault (Entries Schema)
  list : Except SchemaFault (List Schema)

namespace Reading

def unexpected {α : Type} (value : Json) (expected : String) : Except SchemaFault α :=
  .error (.unexpected value expected)

def text (value : Json) : Except SchemaFault String :=
  match value with
  | .string s => .ok s
  | other => unexpected other "a string"

/-- A list of values, each read by `item`. -/
def sequence {α : Type} (item : Json → Except SchemaFault α) (value : Json) :
    Except SchemaFault (List α) :=
  match value with
  | .array items => items.mapM item
  | other => unexpected other "a sequence"

def numeral (value : Json) : Except SchemaFault Numeral :=
  match value with
  | .number n => .ok n
  | other => unexpected other "a JSON number"

def truth (value : Json) : Except SchemaFault Bool :=
  match value with
  | .bool b => .ok b
  | other => unexpected other "a boolean"

/-- A natural number, written as an integer. -/
def count (value : Json) : Except SchemaFault Nat :=
  match value with
  | .number (.integer n) => if n < 0 then .error (.negative n "u64") else .ok n.toNat
  | other => unexpected other "u64"

/-- The `type` keyword. -/
def typeKeyword (value : Json) : Except SchemaFault TypeKeyword :=
  match value with
  | .string name => .ok (.single name)
  | .array items =>
    match items.mapM text with
    | .ok names => .ok (.several names)
    | .error _ => .error (.noForm "SchemaType")
  | _ => .error (.noForm "SchemaType")

/-- The `items` keyword: a list is read as a tuple if all its members are nodes. -/
def items (r : Reading) : Except SchemaFault (Items Schema) :=
  match r.list, r.schema with
  | .ok list, _ => .ok (.tuple list)
  | .error _, .ok schema => .ok (.single schema)
  | .error _, .error _ => .error (.noForm "Items")

/-- The `additionalProperties` keyword. -/
def additional (r : Reading) : Except SchemaFault (Additional Schema) :=
  match r.value, r.schema with
  | .bool verdict, _ => .ok (.allowed verdict)
  | _, .ok schema => .ok (.schema schema)
  | _, .error _ => .error (.noForm "AdditionalProperties")

/-- Adds a keyword with its value to a node. -/
def setKeyword (s : Schema) (keyword : Keyword) (r : Reading) : Except SchemaFault Schema := do
  let v := r.value
  if let .null := v then return s
  let kw := s.keywords
  match keyword with
  | .id => return { s with keywords := { kw with id := ← text v } }
  | .reference => return { s with keywords := { kw with reference := ← text v } }
  | .title => return { s with keywords := { kw with title := ← text v } }
  | .description => return { s with keywords := { kw with description := ← text v } }
  | .format => return { s with keywords := { kw with format := ← text v } }
  | .pattern => return { s with keywords := { kw with pattern := ← text v } }
  | .type => return { s with keywords := { kw with type := ← typeKeyword v } }
  | .properties => return { s with properties := ← r.table }
  | .patternProperties => return { s with patternProperties := ← r.table }
  | .definitions => return { s with definitions := ← r.table }
  | .items => return { s with items := ← r.items }
  | .additionalProperties => return { s with additionalProperties := ← r.additional }
  | .allOf => return { s with allOf := ← r.list }
  | .anyOf => return { s with anyOf := ← r.list }
  | .oneOf => return { s with oneOf := ← r.list }
  | .not => return { s with not := ← r.schema }
  | .required => return { s with keywords := { kw with required := ← sequence text v } }
  | .enumeration => return { s with keywords := { kw with enumeration := ← sequence .ok v } }
  | .defaultValue => return { s with keywords := { kw with defaultValue := v } }
  | .minimum => return { s with keywords := { kw with minimum := ← numeral v } }
  | .maximum => return { s with keywords := { kw with maximum := ← numeral v } }
  | .exclusiveMinimum => return { s with keywords := { kw with exclusiveMinimum := v } }
  | .exclusiveMaximum => return { s with keywords := { kw with exclusiveMaximum := v } }
  | .multipleOf => return { s with keywords := { kw with multipleOf := ← numeral v } }
  | .minLength => return { s with keywords := { kw with minLength := ← count v } }
  | .maxLength => return { s with keywords := { kw with maxLength := ← count v } }
  | .minItems => return { s with keywords := { kw with minItems := ← count v } }
  | .maxItems => return { s with keywords := { kw with maxItems := ← count v } }
  | .uniqueItems => return { s with keywords := { kw with uniqueItems := ← truth v } }
  | .minProperties => return { s with keywords := { kw with minProperties := ← count v } }
  | .maxProperties => return { s with keywords := { kw with maxProperties := ← count v } }

/-- A node from its members, in document order. `seen` holds the keywords read before. -/
def ofMembers (s : Schema) (seen : List Keyword) :
    List (String × Reading) → Except SchemaFault Schema
  | [] => .ok s
  | (name, r) :: rest =>
    match Keyword.ofName? name with
    | none => ofMembers s seen rest
    | some keyword =>
      if seen.contains keyword then .error (.repeated keyword.name)
      else do ofMembers (← setKeyword s keyword r) (keyword :: seen) rest

/-- A node from the values of its keywords in written order. -/
def ofSequence (s : Schema) : List Keyword → List Reading → Except SchemaFault Schema
  | [], _ => .ok s
  | keyword :: keywords, [] => .error (.shortSequence (keywordCount - (keyword :: keywords).length))
  | keyword :: keywords, r :: rest => do ofSequence (← setKeyword s keyword r) keywords rest

/-- The reading of a value that holds no other. -/
def ofScalar (value : Json) : Reading where
  value := value
  schema := unexpected value "struct SchemaNode"
  table := unexpected value "a map"
  list := unexpected value "a sequence"

/-- The reading of an array from those of its items. -/
def ofItems (value : Json) (items : List Reading) : Reading where
  value := value
  schema := do
    let s ← ofSequence {} Keyword.all items
    if keywordCount < items.length then throw (.longSequence items.length)
    return s
  table := unexpected value "a map"
  list := items.mapM Reading.schema

/-- The reading of an object from those of its members. -/
def ofObject (value : Json) (members : List (String × Reading)) : Reading where
  value := value
  schema := ofMembers {} [] members
  table := members.mapM fun (name, r) => return (name, ← r.schema)
  list := unexpected value "a sequence"

mutual

def ofJson : Json → Reading
  | .array values => ofItems (.array values) (readItems values)
  | .object members => ofObject (.object members) (readMembers members)
  | .null => ofScalar .null
  | .bool b => ofScalar (.bool b)
  | .number n => ofScalar (.number n)
  | .string s => ofScalar (.string s)

def readItems : List Json → List Reading
  | [] => []
  | value :: rest => ofJson value :: readItems rest

def readMembers : List (String × Json) → List (String × Reading)
  | [] => []
  | (name, value) :: rest => (name, ofJson value) :: readMembers rest

end

end Reading

/-- Reads a schema. A document has to be an object; nested nodes may also be sequences. -/
def Schema.decode (value : Json) : Except SchemaFault Schema :=
  match value with
  | .object _ => (Reading.ofJson value).schema
  | other => .error (.notObject other)

end SchemaCatalog
