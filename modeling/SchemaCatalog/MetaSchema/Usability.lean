import SchemaCatalog.MetaSchema.Demand
import SchemaCatalog.MetaSchema.Library

namespace SchemaCatalog.MetaSchema

/-- Whether the vocabularies of a draft are in use in a schema that is reached by a reference. They
are those of the draft that it names, and up to draft 7 there are none. -/
def usesVocabularies (site : Site) : Bool :=
  Draft.since .draft2019 ((site.draft.within? site.schema).getD site.draft)

/-- A schema below one that takes part in checking. If it names an unknown draft it follows the
newest. -/
def Site.part? (outer : Site) (schema : Json) : Option Site := do
  let draft := (outer.draft.within? schema).getD .draft2020
  return ⟨← baseWithin? draft outer.base schema, draft, schema⟩

namespace Library

/-- A walk through schemas that fails at one that is not usable. Its state are the addresses that
were reached by references. -/
abbrev Visit := StateT (List Address) Option

/-- Visits a schema and all that it needs, each reference once. -/
def visit (library : Library) : Nat → Bool → Site → Visit Unit
  | 0, _, _ => failure
  | fuel + 1, inUse, site => do
    for need in ← needs? site.draft inUse site.schema do
      match need with
      | .schema value => library.visit fuel inUse (← site.part? value)
      | .reference text =>
        let address ← site.base.resolve? text
        if !(← get).contains address then
          modify (address :: ·)
          let target ← library.lookup? site.base text
          library.visit fuel (usesVocabularies target) target

/-- A bound for how deep a walk goes: it follows each reference once from each address, and between
two of them it goes down a document. -/
def depthBound (library : Library) : Nat :=
  let sizes := library.documents.map fun site => size site.schema
  let total := sizes.foldl (· + ·) 0
  (total * (library.documents.length + 1) + 1) * (total + 2)

def isUsable (library : Library) (site : Site) : Bool :=
  ((library.visit library.depthBound (usesVocabularies site) site).run []).isSome

end Library

end SchemaCatalog.MetaSchema
