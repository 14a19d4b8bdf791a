import SchemaCatalog.Naming
import SchemaCatalog.Json.Printer

namespace SchemaCatalog

/-- What a run can be told. -/
structure Options where
  naming : NamingConvention := .json
  /-- References that are never inlined and always become types of their own. -/
  kept : List String := []
  /-- Field names for patterns of `patternProperties`. -/
  patternNames : Entries String := []
  /-- Put in front of every type name. -/
  typeLead : String := ""
  /-- The name of the root type. Without it the title counts, then `Schema`. -/
  rootName : Option String := none
  /-- The number of inlining passes after which a document counts as cyclic. -/
  maxPasses : Nat := 64
  /-- Whether documents are first checked against their meta-schema. -/
  validate : Bool := false
deriving DecidableEq, Repr, Inhabited

namespace Options

def keep (o : Options) (reference : String) : Options := { o with kept := o.kept ++ [reference] }

def namePattern (o : Options) (pattern name : String) : Options :=
  { o with patternNames := o.patternNames.put pattern name }

def isKept (o : Options) (reference : String) : Bool := o.kept.contains reference

/-- The options as a value, all of them written. -/
def encode (o : Options) : Json :=
  .object [("namingConvention", .string o.naming.name),
    ("excludedRefsKeptAsClasses", .strings o.kept),
    ("patternNameTable",
      .object (o.patternNames.map fun (pattern, name) => (pattern, .string name))),
    ("typePrefix", .string o.typeLead), ("rootName", .ofString? o.rootName),
    ("maxPasses", .nat o.maxPasses), ("validateSchema", .bool o.validate)]

end Options

end SchemaCatalog
