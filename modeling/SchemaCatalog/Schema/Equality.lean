import SchemaCatalog.Schema.Basic

namespace SchemaCatalog

def sameOption {α : Type} (same : α → α → Bool) : Option α → Option α → Bool
  | none, none => true
  | some a, some b => same a b
  | _, _ => false

/-- Equality of the keywords that hold no schemas. -/
def Keywords.same (a b : Keywords) : Bool :=
  a.id == b.id && a.reference == b.reference && a.title == b.title &&
    a.description == b.description && a.format == b.format && a.pattern == b.pattern &&
    a.type == b.type && a.required == b.required &&
    sameOption Json.sameItems a.enumeration b.enumeration &&
    sameOption Json.same a.defaultValue b.defaultValue &&
    sameOption Numeral.same a.minimum b.minimum && sameOption Numeral.same a.maximum b.maximum &&
    sameOption Json.same a.exclusiveMinimum b.exclusiveMinimum &&
    sameOption Json.same a.exclusiveMaximum b.exclusiveMaximum &&
    sameOption Numeral.same a.multipleOf b.multipleOf &&
    a.minLength == b.minLength && a.maxLength == b.maxLength && a.minItems == b.minItems &&
    a.maxItems == b.maxItems && a.uniqueItems == b.uniqueItems &&
    a.minProperties == b.minProperties && a.maxProperties == b.maxProperties

namespace Schema

mutual

def same : Schema → Schema → Bool
  | ⟨kw, props, patterns, defs, items, additional, allOf, anyOf, oneOf, not⟩, b =>
    kw.same b.keywords && sameTable props b.properties && sameTable patterns b.patternProperties &&
      sameTable defs b.definitions && sameItems items b.items &&
      sameAdditional additional b.additionalProperties && sameLists allOf b.allOf &&
      sameLists anyOf b.anyOf && sameLists oneOf b.oneOf && sameNode not b.not

def sameNode : Option Schema → Option Schema → Bool
  | none, none => true
  | some a, some b => same a b
  | _, _ => false

def sameItems : Option (Items Schema) → Option (Items Schema) → Bool
  | none, none => true
  | some (.single a), some (.single b) => same a b
  | some (.tuple as), some (.tuple bs) => sameList as bs
  | _, _ => false

def sameAdditional : Option (Additional Schema) → Option (Additional Schema) → Bool
  | none, none => true
  | some (.allowed a), some (.allowed b) => a == b
  | some (.schema a), some (.schema b) => same a b
  | _, _ => false

def sameLists : Option (List Schema) → Option (List Schema) → Bool
  | none, none => true
  | some as, some bs => sameList as bs
  | _, _ => false

def sameList : List Schema → List Schema → Bool
  | [], [] => true
  | a :: as, b :: bs => same a b && sameList as bs
  | _, _ => false

def sameTable : Option (List (String × Schema)) → Option (List (String × Schema)) → Bool
  | none, none => true
  | some as, some bs => sameEntries as bs
  | _, _ => false

/-- Each entry of the first table is matched with one of the second. -/
def sameEntries : List (String × Schema) → List (String × Schema) → Bool
  | [], bs => bs.isEmpty
  | (key, a) :: as, bs =>
    match Entries.extract? key (same a) bs with
    | some rest => sameEntries as rest
    | none => false

end

instance : BEq Schema := ⟨same⟩

def isEmpty (s : Schema) : Bool := s == {}

end Schema

end SchemaCatalog
