import SchemaCatalog.Catalog.Basic

namespace SchemaCatalog

/-- The type of a field and how the field holds it. -/
structure FieldSpec where
  type : TypeRef
  kind : FieldKind
  repeated : Bool := false
  mapValueType : Option TypeRef := none
deriving DecidableEq, Repr, Inhabited

namespace FieldSpec

def one (type : TypeRef) : FieldSpec where
  type := type
  kind := if type.isPrimitive then .scalar else .reference

def scalar (p : Primitive) : FieldSpec := one (.primitive p)

/-- A table from strings to values of a type. -/
def map (value : TypeRef) : FieldSpec where
  type := value
  kind := .map
  mapValueType := some value

def many (spec : FieldSpec) : FieldSpec := { spec with repeated := true }

/-- Neither a list nor a table, so that it can be the element of one. -/
def isPlain (spec : FieldSpec) : Bool := !spec.repeated && spec.kind != .map

def toField (spec : FieldSpec) (name : String) (naming : NamingConvention)
    (description : Option String) : Field where
  name := name
  fieldName := Naming.fieldName name naming
  type := spec.type
  kind := spec.kind
  repeated := spec.repeated
  mapValueType := spec.mapValueType
  position := none
  description := description

theorem isPlain_one (type : TypeRef) : (one type).isPlain = true := by
  cases type <;> rfl

end FieldSpec

end SchemaCatalog
