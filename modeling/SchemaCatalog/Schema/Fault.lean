import SchemaCatalog.Json.Printer
import SchemaCatalog.Text.Quoted

namespace SchemaCatalog

/-- How a value is described where another was expected. -/
def Json.describe : Json → String
  | .null => "null"
  | .bool b => s!"boolean `{b}`"
  | .number (.integer n) => s!"integer `{n}`"
  | .number n => s!"floating point `{n.render}`"
  | .string s => s!"string {Text.quoted s}"
  | .array _ => "sequence"
  | .object _ => "map"

/-- Why a value is no schema. -/
inductive SchemaFault where
  | unexpected (found : Json) (expected : String)
  /-- A negative number where a count was expected. -/
  | negative (found : Int) (expected : String)
  /-- A node written as a sequence that ends too soon. -/
  | shortSequence (length : Nat)
  /-- A node written as a sequence that goes on too long. -/
  | longSequence (length : Nat)
  /-- A value that fits none of the forms of a keyword. -/
  | noForm (keyword : String)
  | repeated (keyword : String)
  | notObject (found : Json)
  /-- A fault of the schema under a name. -/
  | named (name : String) (fault : SchemaFault)
  | rejected
  /-- Any other fault, in words. -/
  | other (message : String)
deriving Repr, Inhabited

/-- The number of keywords, which is the length of a node written as a sequence. -/
def keywordCount : Nat := 31

def SchemaFault.message : SchemaFault → String
  | .unexpected found expected => s!"invalid type: {found.describe}, expected {expected}"
  | .negative found expected => s!"invalid value: integer `{found}`, expected {expected}"
  | .shortSequence length =>
    s!"invalid length {length}, expected struct SchemaNode with {keywordCount} elements"
  | .longSequence length => s!"invalid length {length}, expected fewer elements in array"
  | .noForm keyword => s!"data did not match any variant of untagged enum {keyword}"
  | .repeated keyword => s!"duplicate field `{keyword}`"
  | .notObject found => s!"expected schema object, got {found.kindName}"
  | .named name fault => s!"{name}: {fault.message}"
  | .rejected => "the document does not satisfy its meta-schema"
  | .other message => message

end SchemaCatalog
