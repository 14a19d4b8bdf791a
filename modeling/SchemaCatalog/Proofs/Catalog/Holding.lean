import SchemaCatalog.Proofs.Schema.Nodes
import SchemaCatalog.Catalog.FieldShape

namespace SchemaCatalog

/-- A way to hold the values of a schema in a field. -/
inductive Holding where
  /-- As the type that a reference stands for. -/
  | follows (reference : String)
  /-- As they are, without a type for them. -/
  | plainly (spec : FieldSpec)
  /-- As a list. `segment` leads to the element in paths. -/
  | list (element : Schema) (segment : String)
  | table (value : Schema)
  /-- As a type of their own. -/
  | typed (asChoice : Bool)
  /-- Not at all, for a reason. -/
  | refused (code message : String)

/-- How a field holds the values of a schema. -/
def Schema.holding (s : Schema) : Holding :=
  match s.reference with
  | some reference => .follows reference
  | none =>
    match s.shape with
    | .scalar p => .plainly (.scalar p)
    | .array =>
      match s.items with
      | some (.single item) => .list item "/items"
      | some (.tuple (item :: _)) => .list item "/items"
      | _ => .plainly (FieldSpec.scalar .any).many
    | .object =>
      if s.properties.isSome || s.patternProperties.isSome then .typed false
      else
        match s.additionalProperties with
        | some (.schema value) => .table value
        | _ => .plainly (.map (.primitive .any))
    | .unsupported type => .refused "unsupported-type" s!"type \"{type}\" is not supported"
    | .severalTypes =>
      .refused "unsupported-type-list" "schemas with several non-null types are not supported"
    | .choice => .typed true
    | .anyOf =>
      match s.anyOf with
      | some [first, second] =>
        match Schema.elementSide first second with
        | some .first => .list first ""
        | some .second => .list second ""
        | none => .typed false
      | _ =>
        .refused "unsupported-any-of"
          s!"anyOf with {(s.anyOf.getD []).length} members is not supported"
    | .anything => .plainly (.scalar .any)
    | .unknown =>
      .refused "unsupported-shape"
        "schema has no type, reference or composition that can be modeled"

namespace Builder

def hold (b : Builder) (stub path : String) (s : Schema) : Holding → BuildM (Option FieldSpec)
  | .follows reference => do return some (← b.referenceSpec reference path)
  | .plainly spec => return some spec
  | .list element segment =>
    b.listSpec (b.fieldFor (stub ++ "Item") (path ++ segment) element) element (stub ++ "Item")
      (path ++ segment)
  | .table value =>
    b.tableSpec (b.fieldFor (stub ++ "Value") (path ++ "/additionalProperties") value) value
      (stub ++ "Value") (path ++ "/additionalProperties")
  | .typed asChoice => do return some (← b.requestSpec s stub path asChoice)
  | .refused code message => do
    warn code path message
    return none

theorem fieldFor_eq (b : Builder) (stub path : String) (s : Schema) :
    b.fieldFor stub path s = b.hold stub path s s.holding := by
  obtain ⟨kw, props, patterns, defs, items, additional, allOf, anyOf, oneOf, not⟩ := s
  unfold fieldFor Schema.holding
  simp only [Schema.reference]
  cases kw.reference with
  | some reference => rfl
  | none =>
    dsimp only
    split
    · simp only [*, hold]
    · split <;> simp only [*, hold]
    · split
      · simp only [*, hold]
      · split <;> simp only [*, hold]
    · simp only [*, hold]
    · simp only [*, hold]
    · simp only [*, hold]
    · split
      · split <;> simp only [*, hold, String.append_empty]
      · simp only [*, hold]
    · simp only [*, hold]
    · simp only [*, hold]

end Builder

namespace Schema

variable {s c : Schema}

theorem reference_of_follows {reference : String} (h : s.holding = .follows reference) :
    s.reference = some reference := by
  unfold holding at h
  grind

theorem segment_of_list {segment : String} (h : s.holding = .list c segment) :
    segment = "/items" ∨ segment = "" := by
  unfold holding at h
  grind

theorem choice_of_typed (h : s.holding = .typed true) :
    s.reference = none ∧ s.shape = .choice := by
  unfold holding at h
  grind

theorem child_of_holding_list {segment : String} (h : s.holding = .list c segment) : Child c s := by
  unfold holding at h
  split at h
  · cases h
  · split at h <;> try cases h
    · split at h <;> cases h
      · exact .item ‹_›
      · exact .position ‹_› List.mem_cons_self
    · split at h
      · cases h
      · split at h <;> cases h
    · split at h
      · split at h <;> cases h
        · exact .anyOf ‹_› List.mem_cons_self
        · exact .anyOf ‹_› (List.mem_cons_of_mem _ List.mem_cons_self)
      · cases h

theorem child_of_holding_table (h : s.holding = .table c) : Child c s := by
  unfold holding at h
  split at h
  · cases h
  · split at h <;> try cases h
    · split at h <;> cases h
    · split at h
      · cases h
      · split at h <;> cases h
        exact .additional ‹_›
    · split at h
      · split at h <;> cases h
      · cases h

/-- The values are held as a list: of arrays, or of one value or an array of such values. -/
def Lists (s : Schema) : Prop :=
  s.reference = none ∧ (s.shape = .array ∨
    s.shape = .anyOf ∧ ∃ members, s.anyOf = some members ∧ (singleOrArray members).isSome = true)

/-- The values are held as a table: they are objects without properties of their own. -/
def Tables (s : Schema) : Prop :=
  s.reference = none ∧ s.shape = .object ∧ s.properties = none ∧ s.patternProperties = none

theorem lists_of_holding {segment : String} (h : s.holding = .list c segment) : s.Lists := by
  unfold holding at h
  unfold Lists
  grind [singleOrArray]

theorem holding_of_tables (h : s.Tables) : s.holding =
    match s.additionalProperties with
    | some (.schema value) => .table value
    | _ => .plainly (.map (.primitive .any)) := by
  obtain ⟨hreference, hshape, hproperties, hpatterns⟩ := h
  simp only [holding, hreference, hshape, hproperties, hpatterns]
  rfl

theorem tables_of_holding (h : s.holding = .table c) : s.Tables := by
  unfold holding at h
  simp only [Tables, ← Option.not_isSome_iff_eq_none]
  grind

/-- What is held without a type is a scalar, or it is of unknown items or values. -/
theorem cases_of_plainly {spec : FieldSpec} (h : s.holding = .plainly spec) :
    (∃ p, spec = .scalar p) ∨ (s.Lists ∧ spec = (FieldSpec.scalar .any).many) ∨
      s.Tables ∧ spec = .map (.primitive .any) := by
  unfold holding at h
  split at h
  · cases h
  · rename_i hreference
    split at h <;> try cases h
    · exact .inl ⟨_, rfl⟩
    · rename_i hshape
      split at h <;> cases h
      exact .inr (.inl ⟨⟨hreference, .inl hshape⟩, rfl⟩)
    · rename_i hshape
      split at h
      · cases h
      · rename_i htables
        split at h <;> cases h
        rw [Bool.or_eq_true, not_or, Option.not_isSome_iff_eq_none,
          Option.not_isSome_iff_eq_none] at htables
        exact .inr (.inr ⟨⟨hreference, hshape, htables⟩, rfl⟩)
    · split at h
      · split at h <;> cases h
      · cases h
    · exact .inl ⟨_, rfl⟩

end Schema

end SchemaCatalog
