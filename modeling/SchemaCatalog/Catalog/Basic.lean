import SchemaCatalog.Naming

namespace SchemaCatalog

/-- The types that every catalog has. -/
inductive Primitive where
  | string
  | bool
  | int32
  | int64
  | float
  | any
deriving DecidableEq, Repr, Inhabited

namespace Primitive

def all : List Primitive := [.string, .bool, .int32, .int64, .float, .any]

def name : Primitive → String
  | .string => "string"
  | .bool => "bool"
  | .int32 => "int32"
  | .int64 => "int64"
  | .float => "float"
  | .any => "Any"

def ofName? (text : String) : Option Primitive := all.find? (·.name == text)

/-- The primitive for a scalar type of a schema. Integers have 64 bits unless the format says 32. -/
def ofSchemaType? (type : String) (format : Option String) : Option Primitive :=
  match type with
  | "string" => some .string
  | "boolean" => some .bool
  | "number" => some .float
  | "integer" => if format == some "int32" then some .int32 else some .int64
  | _ => none

end Primitive

/-- What a field refers to: a primitive, or a type of the catalog by its name. -/
inductive TypeRef where
  | primitive (p : Primitive)
  | named (name : String)
deriving DecidableEq, Repr, Inhabited

namespace TypeRef

def text : TypeRef → String
  | .primitive p => p.name
  | .named name => name

def isPrimitive : TypeRef → Bool
  | .primitive _ => true
  | .named _ => false

/-- The name of a type of the catalog. -/
def name? : TypeRef → Option String
  | .primitive _ => none
  | .named name => some name

def ofText (text : String) : TypeRef :=
  match Primitive.ofName? text with
  | some p => .primitive p
  | none => .named text

end TypeRef

/-- The sort of a type. -/
inductive TypeKind where
  | struct
  /-- An object with nothing but additional properties. -/
  | map
  /-- A choice with one field per alternative, at most one of them set. -/
  | oneOfWrapper
  /-- A name for a scalar or array, with that as its only field. -/
  | scalarAlias
deriving DecidableEq, Repr, Inhabited

namespace TypeKind

def all : List TypeKind := [.struct, .map, .oneOfWrapper, .scalarAlias]

def name : TypeKind → String
  | .struct => "struct"
  | .map => "map"
  | .oneOfWrapper => "oneOfWrapper"
  | .scalarAlias => "scalarAlias"

def ofName? (text : String) : Option TypeKind := all.find? (·.name == text)

end TypeKind

/-- How a field holds its type. -/
inductive FieldKind where
  | scalar
  | reference
  | map
deriving DecidableEq, Repr, Inhabited

/-- The name of a kind of field. -/
def FieldKind.name : FieldKind → String
  | .scalar => "scalar"
  | .reference => "reference"
  | .map => "map"

/-- Where a parameter of an operation travels. -/
inductive Position where
  | body
  | header
  | formData
  | query
  | path
deriving DecidableEq, Repr, Inhabited

namespace Position

def all : List Position := [.body, .header, .formData, .query, .path]

def name : Position → String
  | .body => "body"
  | .header => "header"
  | .formData => "formData"
  | .query => "query"
  | .path => "path"

def ofName? (text : String) : Option Position := all.find? (·.name == text)

end Position

/-- A field of a type. -/
structure Field where
  name : String
  fieldName : String
  type : TypeRef
  kind : FieldKind
  repeated : Bool
  mapValueType : Option TypeRef
  position : Option Position
  description : Option String
deriving DecidableEq, Repr, Inhabited

def Field.targets (f : Field) : List TypeRef := f.type :: f.mapValueType.toList

/-- A type of a catalog. -/
structure CatalogType where
  name : String
  kind : TypeKind
  fields : List Field := []
  required : List String := []
  description : Option String := none
  /-- Whether there may be keys beyond the fields. -/
  isOpen : Bool := false
deriving DecidableEq, Repr, Inhabited

namespace CatalogType

def field? (t : CatalogType) (name : String) : Option Field := t.fields.find? (·.name == name)

def isRequired (t : CatalogType) (name : String) : Bool := t.required.contains name

def push (t : CatalogType) (field : Field) : CatalogType := { t with fields := t.fields ++ [field] }

end CatalogType

/-- An operation of an interface. -/
structure Method where
  name : String
  path : String
  verb : String
  parametersType : Option String
  responsesType : Option String
  description : Option String
deriving DecidableEq, Repr, Inhabited

/-- Types and methods of one document. -/
structure Catalog where
  types : List CatalogType := []
  methods : List Method := []
deriving DecidableEq, Repr, Inhabited

namespace Catalog

def type? (c : Catalog) (name : String) : Option CatalogType := c.types.find? (·.name == name)

def hasType (c : Catalog) (name : String) : Bool := (c.type? name).isSome

/-- Adds a type; if its name is taken the catalog stays as it is. -/
def addType (c : Catalog) (type : CatalogType) : Catalog :=
  if c.hasType type.name then c else { c with types := c.types ++ [type] }

def addMethod (c : Catalog) (method : Method) : Catalog :=
  { c with methods := c.methods ++ [method] }

/-- A reference of a field to a type that is not there. -/
structure Dangling where
  type : String
  field : String
  missing : String
deriving DecidableEq, Repr

/-- The references to types that are not there. -/
def dangling (c : Catalog) : List Dangling :=
  c.types.flatMap fun type => type.fields.flatMap fun field =>
    (field.targets.filterMap TypeRef.name?).filterMap fun name =>
      if c.hasType name then none else some ⟨type.name, field.name, name⟩

end Catalog

end SchemaCatalog
