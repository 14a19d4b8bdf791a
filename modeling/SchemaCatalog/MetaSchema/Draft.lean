import SchemaCatalog.Json.Basic

namespace SchemaCatalog.MetaSchema

/-- A draft of JSON Schema. -/
inductive Draft where
  | draft4
  | draft6
  | draft7
  | draft2019
  | draft2020
deriving DecidableEq, Repr, Inhabited

namespace Draft

/-- The position of a draft in time. -/
def rank : Draft → Nat
  | .draft4 => 4
  | .draft6 => 6
  | .draft7 => 7
  | .draft2019 => 8
  | .draft2020 => 9

def since (first draft : Draft) : Bool := first.rank ≤ draft.rank

/-- The drafts by the address of their meta-schema, without a closing `#`. -/
def ofAddress? : String → Option Draft
  | "http://json-schema.org/draft-04/schema" => some .draft4
  | "http://json-schema.org/draft-06/schema" => some .draft6
  | "http://json-schema.org/draft-07/schema" => some .draft7
  | "https://json-schema.org/draft/2019-09/schema" => some .draft2019
  | "https://json-schema.org/draft/2020-12/schema" => some .draft2020
  | _ => none

def trimHashes (text : String) : String :=
  String.ofList (text.toList.reverse.dropWhile (· == '#')).reverse

/-- The draft that a schema within one of another draft follows: the one that it names, if it names
any. Nothing for an unknown one. -/
def within? (outer : Draft) (schema : Json) : Option Draft :=
  match schema.stringMember? "$schema" with
  | none => some outer
  | some address => ofAddress? (trimHashes address)

/-- The draft that a schema by itself follows: the newest if it names none. -/
def ofSchema? (schema : Json) : Option Draft := within? .draft2020 schema

def isMetaAddress (address : String) : Bool :=
  ["http://json-schema.org/draft-04/", "http://json-schema.org/draft-06/",
    "http://json-schema.org/draft-07/", "https://json-schema.org/draft/2019-09/",
    "https://json-schema.org/draft/2020-12/"].any fun lead => lead.toList.isPrefixOf address.toList

def idKeyword : Draft → String
  | .draft4 => "id"
  | _ => "$id"

/-- Whether a reference hides everything beside it. -/
def referenceHides (draft : Draft) : Bool := !Draft.since .draft2019 draft

end Draft

end SchemaCatalog.MetaSchema
