import SchemaCatalog.Proofs.Catalog.Elements

namespace SchemaCatalog

theorem sameOption_none {α : Type} (same : α → α → Bool) (value : Option α) :
    sameOption same value none = value.isNone := by
  cases value <;> rfl

namespace Schema

variable {s : Schema}

theorem isEmpty_iff : s.isEmpty = true ↔ s = {} := by
  constructor
  · intro hempty
    obtain ⟨kw, props, patterns, defs, items, additional, allOf, anyOf, oneOf, not⟩ := s
    -- an absent keyword is equal only to an absent one
    obtain ⟨hkeywords, ⟨⟩, ⟨⟩, ⟨⟩, ⟨⟩, ⟨⟩, ⟨⟩, ⟨⟩, ⟨⟩, ⟨⟩⟩ := same_iff.1 hempty
    have hkw : kw = {} := by
      cases kw
      simpa [Keywords.same, sameOption_none, and_assoc] using hkeywords
    rw [hkw]
  · intro heq
    rw [heq]
    exact beq_self_eq_true ({} : Schema)

/-- No field can hold the values: they are refused, or lists of such values. -/
inductive Unheld : Schema → Prop
  | refused {s : Schema} {code message : String} : s.holding = .refused code message → Unheld s
  | list {s element : Schema} {segment : String} : s.holding = .list element segment →
    Unheld element → Unheld s

theorem unheld_iff : s.Unheld ↔
    match s.holding with
    | .list element _ => element.Unheld
    | .refused _ _ => True
    | _ => False := by
  constructor
  · intro h
    cases h with
    | refused hholding =>
      rw [hholding]
      trivial
    | list hholding helement =>
      rw [hholding]
      exact helement
  · intro h
    split at h
    · exact .list ‹_› h
    · exact .refused ‹_›
    · exact h.elim

/-- Keys are admitted that are not declared, by a pattern or without one. -/
def AdmitsUndeclared (s : Schema) : Prop :=
  s.patternProperties.getD [] ≠ [] ∨
    (s.additionalProperties ≠ none ∧ s.additionalProperties ≠ some (.allowed false)) ∨ s = {}

/-- The values of undeclared keys are all that is described, and no field can hold them. -/
def DropsValues (s : Schema) : Prop :=
  s.patternProperties.getD [] = [] ∧ s.properties = none ∧
    ∃ value, s.additionalProperties = some (.schema value) ∧ value.Unheld

end Schema

namespace Builder

variable {b : Builder} {r : Request} {p p' : Progress} {type : CatalogType}

theorem specOf_eq_none_iff (stub : String) (s : Schema) : b.specOf stub s = none ↔ s.Unheld := by
  induction s using Schema.child_induction generalizing stub with
  | h s ih =>
    rw [specOf_eq, Schema.unheld_iff]
    cases hholding : s.holding with
    | list element segment =>
      dsimp only
      rw [Option.map_eq_none_iff, ih element (Schema.child_of_holding_list hholding)]
    | table value => simp
    | refused code message => simp
    | follows reference => simp
    | plainly spec => simp
    | typed asChoice => simp

theorem admitsMore_iff {s : Schema} : admitsMore s = true ↔
    s.additionalProperties ≠ none ∧ s.additionalProperties ≠ some (.allowed false) := by
  unfold admitsMore
  cases s.additionalProperties with
  | none => simp
  | some additional => cases additional <;> simp

theorem undeclared_isSome_iff {stub : String} {s : Schema} :
    (b.undeclared stub s).isSome = true ↔ admitsMore s = true ∧
      ¬ ∃ value, s.additionalProperties = some (.schema value) ∧ value.Unheld := by
  unfold undeclared admitsMore
  cases s.additionalProperties with
  | none => simp
  | some additional =>
    cases additional with
    | allowed verdict => cases verdict <;> simp
    | schema value =>
      simp [← specOf_eq_none_iff (b := b) (stub ++ "Value"), Option.ne_none_iff_isSome]

/-- The type of an object whose parts were found. -/
def object (b : Builder) (r : Request) (properties patternFields : List Field)
    (value : Option TypeRef) : CatalogType :=
  let undeclared := if r.schema.isEmpty then some (.primitive .any) else value
  { name := r.name
    kind := if undeclared.isSome && r.schema.patternProperties.isNone then .map else .struct
    fields := properties ++ patternFields ++
      undeclared.toList.map fun value => b.field (.map value) "additionalProperties" none
    required := distinctNames (r.schema.keywords.required.getD [])
    isOpen := !(r.schema.patternProperties.getD []).isEmpty || undeclared.isSome ||
      (r.schema.properties.isSome && admitsMore r.schema) }

theorem undeclared_of_run {value : Option TypeRef}
    (h : (b.additionalType r).run p = .ok (value, p')) :
    value = if r.schema.properties.isSome then none else b.undeclared r.stub r.schema := by
  unfold additionalType at h
  split at h
  · rename_i hproperties
    cases h
    exact (if_pos hproperties).symm
  · rename_i hproperties
    rw [if_neg hproperties, undeclared]
    cases hadditional : r.schema.additionalProperties with
    | none =>
      rw [hadditional] at h
      cases h
      rfl
    | some additional =>
      rw [hadditional] at h
      cases additional with
      | allowed verdict => cases verdict <;> cases h <;> rfl
      | schema schema =>
        obtain ⟨spec, p₁, hfield, h⟩ := run_bind h
        dsimp only
        rw [← (spec_of_run b hfield).1]
        cases spec with
        | none =>
          cases h
          rfl
        | some spec =>
          obtain ⟨element, p₂, helement, h⟩ := run_bind h
          cases h
          exact congrArg some ((yields_elementType b spec schema _ _ p₁).of_ok helement).1

theorem run_buildObject (h : (b.buildObject r).run p = .ok (type, p')) :
    ∃ properties p₁ patternFields p₂,
      (collectFields (b.propertyField r.name) (r.schema.properties.getD [])).run p =
        .ok (properties, p₁) ∧
      (collectFields (b.patternField r.name) (r.schema.patternProperties.getD [])).run p₁ =
        .ok (patternFields, p₂) ∧
      type = b.object r properties patternFields
        (if r.schema.properties.isSome then none else b.undeclared r.stub r.schema) := by
  obtain ⟨properties, p₁, hproperties, h⟩ := run_bind h
  obtain ⟨patternFields, p₂, hpatterns, h⟩ := run_bind h
  obtain ⟨value, p₃, hvalue, h⟩ := run_bind h
  cases h
  refine ⟨properties, p₁, patternFields, p₂, hproperties, hpatterns, ?_⟩
  rw [← undeclared_of_run hvalue]
  rfl

theorem name_of_propertyField {name key : String} {s : Schema} {found : Option Field}
    (h : (b.propertyField name key s).run p = .ok (found, p')) :
    ∀ f ∈ found, some key = some f.name := by
  obtain ⟨spec, p₁, _, h⟩ := run_bind h
  cases h
  intro f hf
  obtain ⟨spec, _, hspec⟩ := Option.map_eq_some_iff.1 hf
  rw [← hspec]
  rfl

theorem name_of_patternField {name pattern : String} {s : Schema} {found : Option Field}
    (h : (b.patternField name pattern s).run p = .ok (found, p')) :
    ∀ f ∈ found, b.options.patternNames.lookup pattern = some f.name := by
  intro f hf
  unfold patternField at h
  dsimp only at h
  split at h
  · cases h
    cases hf
  · rename_i configured hconfigured
    obtain ⟨spec, p₁, _, h⟩ := run_bind h
    cases spec with
    | none =>
      cases h
      cases hf
    | some spec =>
      obtain ⟨value, p₂, _, h⟩ := run_bind h
      cases h
      cases hf
      exact hconfigured

/-- Fields are collected in the order of the keys, with some left out. -/
theorem sublist_collectFields {step : String → Schema → BuildM (Option Field)}
    {named : String → Option String} {table : Entries Schema} {fields : List Field}
    (h : (collectFields step table).run p = .ok (fields, p'))
    (hstep : ∀ key s p p' found, (step key s).run p = .ok (found, p') →
      ∀ f ∈ found, named key = some f.name) :
    (fields.map (·.name)).Sublist (table.keys.filterMap named) := by
  induction table generalizing p fields with
  | nil =>
    cases h
    exact .slnil
  | cons entry rest ih =>
    obtain ⟨key, s⟩ := entry
    obtain ⟨found, p₁, hfound, h⟩ := run_bind h
    obtain ⟨others, p₂, hothers, h⟩ := run_bind h
    cases h
    have hrest := ih hothers
    rw [Entries.keys_cons]
    cases found with
    | some f =>
      rw [List.filterMap_cons_some (hstep _ _ _ _ _ hfound f rfl)]
      exact hrest.cons_cons f.name
    | none =>
      rw [List.filterMap_cons]
      cases named key with
      | none => exact hrest
      | some name => exact hrest.cons name

theorem names_object (properties patternFields : List Field) (value : Option TypeRef) :
    ∃ undeclared, (b.object r properties patternFields value).fields.map (·.name) =
        properties.map (·.name) ++ patternFields.map (·.name) ++ undeclared ∧
      (undeclared = [] ∨ undeclared = ["additionalProperties"]) := by
  rw [object]
  dsimp only
  rw [List.map_append, List.map_append]
  generalize (if r.schema.isEmpty then some (.primitive .any) else value) = found
  cases found with
  | none => exact ⟨[], rfl, .inl rfl⟩
  | some found => exact ⟨["additionalProperties"], rfl, .inr rfl⟩

/-- The fields of an object stand in the order of what they are for: of properties as they are
declared, of patterns as they are declared, and at most one for undeclared keys. -/
def OrdersFields (b : Builder) (r : Request) (type : CatalogType) : Prop :=
  ∃ properties patterns undeclared,
    type.fields.map (·.name) = properties ++ patterns ++ undeclared ∧
    properties.Sublist (Entries.keys (r.schema.properties.getD [])) ∧
    patterns.Sublist ((Entries.keys (r.schema.patternProperties.getD [])).filterMap
      fun pattern => b.options.patternNames.lookup pattern) ∧
    (undeclared = [] ∨ undeclared = ["additionalProperties"])

theorem ordersFields_of_buildObject (h : (b.buildObject r).run p = .ok (type, p')) :
    b.OrdersFields r type := by
  obtain ⟨properties, p₁, patternFields, p₂, hproperties, hpatterns, htype⟩ := run_buildObject h
  have hprops := sublist_collectFields hproperties fun _ _ _ _ _ => name_of_propertyField
  have hpats := sublist_collectFields hpatterns fun _ _ _ _ _ => name_of_patternField
  rw [List.filterMap_some] at hprops
  obtain ⟨undeclared, hnames, hundeclared⟩ := names_object properties patternFields _
  exact ⟨_, _, undeclared, htype ▸ hnames, hprops, hpats, hundeclared⟩

/-- A type that is built for an object is open where keys are admitted that are not declared, unless
only these are described and no field can hold their values. -/
theorem buildObject_isOpen_iff (h : (b.buildObject r).run p = .ok (type, p')) :
    type.isOpen = true ↔ r.schema.AdmitsUndeclared ∧ ¬ r.schema.DropsValues := by
  obtain ⟨properties, p₁, patternFields, p₂, _, _, htype⟩ := run_buildObject h
  rw [htype, object, Schema.AdmitsUndeclared, Schema.DropsValues, ← Schema.isEmpty_iff,
    ← admitsMore_iff]
  dsimp only
  cases hpatterns : r.schema.patternProperties.getD [] with
  | cons entry rest => simp
  | nil =>
    cases hempty : r.schema.isEmpty with
    | true =>
      have hnone : r.schema.additionalProperties = none := by
        rw [Schema.isEmpty_iff.1 hempty]
      simp [hnone]
    | false =>
      cases hproperties : r.schema.properties with
      | some table => simp
      | none => simp [undeclared_isSome_iff]

def vendorTable : Request where
  name := "Vendor"
  stub := "vendor"
  path := "#"
  schema := { Schema.ofType "object" with patternProperties := some [("^x-", .ofType "string")] }

theorem buildObject_isOpen_vendorTable : ∃ type p',
    ((Builder.new ⟨{}, {}⟩).buildObject vendorTable).run {} = .ok (type, p') ∧
      type.isOpen = true := by
  have hrun : ∃ type p', ((Builder.new ⟨{}, {}⟩).buildObject vendorTable).run {} = .ok (type, p') :=
    ⟨_, _, rfl⟩
  obtain ⟨type, p', hrun⟩ := hrun
  refine ⟨type, p', hrun, (buildObject_isOpen_iff hrun).2 ⟨.inl (List.cons_ne_nil _ _), ?_⟩⟩
  exact fun hdrops => List.cons_ne_nil _ _ hdrops.1

def nullTable : Request where
  name := "Flags"
  stub := "flags"
  path := "#"
  schema :=
    { Schema.ofType "object" with additionalProperties := some (.schema (.ofType "null")) }

theorem run_nullTable : ∃ type p',
    ((Builder.new ⟨{}, {}⟩).buildObject nullTable).run {} = .ok (type, p') ∧
      type.isOpen = false := by
  let b := Builder.new ⟨{}, {}⟩
  have htables : nullTable.schema.Tables := ⟨rfl, rfl, rfl, rfl⟩
  have hneeds : b.needed nullTable.schema = [] := by
    rw [needed, Schema.endsIn_eq, show nullTable.schema.holding = .table (.ofType "null") from rfl]
    dsimp only
    rw [Schema.endsIn_eq]
    rfl
  obtain ⟨names, hvalue⟩ := yields_additionalType b htables
  rw [hneeds] at hvalue
  rw [buildObject_of_tables b htables]
  have hquiet (name : String) (hname : name ∈ []) : Progress.Answers {} name :=
    absurd hname List.not_mem_nil
  obtain ⟨p', hrun, _⟩ := (yields_map hvalue _).run hquiet
  refine ⟨_, p', hrun, ?_⟩
  rw [Bool.eq_false_iff]
  intro hsome
  exact (undeclared_isSome_iff.1 hsome).2 ⟨_, rfl, .refused rfl⟩

/-- An object that admits undeclared keys can be built closed. -/
theorem exists_closed_object : ¬ ∀ (b : Builder) (r : Request) (p p' : Progress)
    (type : CatalogType), (b.buildObject r).run p = .ok (type, p') →
      (type.isOpen = true ↔ r.schema.AdmitsUndeclared) := by
  intro hclaim
  obtain ⟨type, p', hrun, hclosed⟩ := run_nullTable
  have hadmits : nullTable.schema.AdmitsUndeclared := .inr (.inl ⟨nofun, nofun⟩)
  rw [(hclaim _ _ _ _ _ hrun).2 hadmits] at hclosed
  cases hclosed

end Builder

end SchemaCatalog
