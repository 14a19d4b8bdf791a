namespace SchemaCatalog.Text

/-- Whether a code point is in the set with the given bounds: the code points, in ascending order,
at which membership changes. -/
def inBounds : List Nat → Nat → Bool
  | [], _ => false
  | first :: rest, code => if code < first then false else !inBounds rest code

end SchemaCatalog.Text
