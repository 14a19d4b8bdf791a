import SchemaCatalog.Schema.Keyword

namespace SchemaCatalog

/-- The `type` keyword as a value. -/
def TypeKeyword.encode : TypeKeyword → Json
  | .single name => .string name
  | .several names => .strings names

namespace Schema

/-- A member that is there only if the keyword is. -/
def member (keyword : Keyword) (value : Option Json) : List (String × Json) :=
  match value with
  | none => []
  | some v => [(keyword.name, v)]

mutual

def encode : Schema → Json
  | ⟨kw, props, patterns, defs, items, additional, allOf, anyOf, oneOf, not⟩ =>
    .object <|
      member .id (kw.id.map .string) ++
      member .reference (kw.reference.map .string) ++
      member .title (kw.title.map .string) ++
      member .description (kw.description.map .string) ++
      member .format (kw.format.map .string) ++
      member .pattern (kw.pattern.map .string) ++
      member .type (kw.type.map TypeKeyword.encode) ++
      member .properties (encodeTable props) ++
      member .patternProperties (encodeTable patterns) ++
      member .definitions (encodeTable defs) ++
      member .items (encodeItems items) ++
      member .additionalProperties (encodeAdditional additional) ++
      member .allOf (encodeLists allOf) ++
      member .anyOf (encodeLists anyOf) ++
      member .oneOf (encodeLists oneOf) ++
      member .not (encodeNode not) ++
      member .required (kw.required.map .strings) ++
      member .enumeration (kw.enumeration.map .array) ++
      member .defaultValue kw.defaultValue ++
      member .minimum (kw.minimum.map .number) ++
      member .maximum (kw.maximum.map .number) ++
      member .exclusiveMinimum kw.exclusiveMinimum ++
      member .exclusiveMaximum kw.exclusiveMaximum ++
      member .multipleOf (kw.multipleOf.map .number) ++
      member .minLength (kw.minLength.map .nat) ++
      member .maxLength (kw.maxLength.map .nat) ++
      member .minItems (kw.minItems.map .nat) ++
      member .maxItems (kw.maxItems.map .nat) ++
      member .uniqueItems (kw.uniqueItems.map .bool) ++
      member .minProperties (kw.minProperties.map .nat) ++
      member .maxProperties (kw.maxProperties.map .nat)

def encodeNode : Option Schema → Option Json
  | none => none
  | some s => some (encode s)

/-- The `items` keyword as a value. -/
def encodeItems : Option (Items Schema) → Option Json
  | none => none
  | some (.single s) => some (encode s)
  | some (.tuple list) => some (.array (encodeList list))

/-- The `additionalProperties` keyword as a value. -/
def encodeAdditional : Option (Additional Schema) → Option Json
  | none => none
  | some (.allowed verdict) => some (.bool verdict)
  | some (.schema s) => some (encode s)

/-- An optional list of schemas as a value. -/
def encodeLists : Option (List Schema) → Option Json
  | none => none
  | some list => some (.array (encodeList list))

def encodeList : List Schema → List Json
  | [] => []
  | s :: rest => encode s :: encodeList rest

/-- An optional table of schemas as a value. -/
def encodeTable : Option (List (String × Schema)) → Option Json
  | none => none
  | some entries => some (.object (encodeEntries entries))

/-- The entries of a table as members. -/
def encodeEntries : List (String × Schema) → List (String × Json)
  | [] => []
  | (key, s) :: rest => (key, encode s) :: encodeEntries rest

end

end Schema

end SchemaCatalog
