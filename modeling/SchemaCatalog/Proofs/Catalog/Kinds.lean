import SchemaCatalog.Proofs.Catalog.Required
import SchemaCatalog.Proofs.Catalog.Slots

namespace SchemaCatalog

namespace FieldSpec

variable {spec : FieldSpec}

/-- The kind says how the type is held: by a table of such values, or by one value or a list of
them, which are primitive or of a type of the catalog. -/
structure Shaped (spec : FieldSpec) : Prop where
  map_iff : spec.kind = .map ↔ spec.mapValueType.isSome = true
  table : spec.kind = .map → spec.mapValueType = some spec.type ∧ spec.repeated = false
  scalar_iff : spec.kind ≠ .map → (spec.kind = .scalar ↔ ∃ p, spec.type = .primitive p)
  reference_iff : spec.kind ≠ .map → (spec.kind = .reference ↔ ∃ name, spec.type = .named name)

/-- Specifications as they are made: for one value, for a list, or for a table. -/
inductive Made : FieldSpec → Prop
  | one (type : TypeRef) : Made (one type)
  | many (type : TypeRef) : Made (one type).many
  | map (value : TypeRef) : Made (map value)

theorem shaped_one (type : TypeRef) : (one type).Shaped := by
  cases type with
  | primitive p =>
    have hscalar : (one (.primitive p)).kind = .scalar ↔ ∃ q, TypeRef.primitive p = .primitive q :=
      ⟨fun _ => ⟨p, rfl⟩, fun _ => rfl⟩
    exact ⟨⟨nofun, nofun⟩, nofun, fun _ => hscalar, fun _ => ⟨nofun, fun h => nomatch h⟩⟩
  | named name =>
    have hreference : (one (.named name)).kind = .reference ↔ ∃ n, TypeRef.named name = .named n :=
      ⟨fun _ => ⟨name, rfl⟩, fun _ => rfl⟩
    exact ⟨⟨nofun, nofun⟩, nofun, fun _ => ⟨nofun, fun h => nomatch h⟩, fun _ => hreference⟩

theorem Shaped.many (h : spec.Shaped) (hkind : spec.kind ≠ .map) : spec.many.Shaped :=
  ⟨h.map_iff, fun hmap => absurd hmap hkind, h.scalar_iff, h.reference_iff⟩

theorem kind_one (type : TypeRef) : (one type).kind ≠ .map := by
  cases type <;> nofun

theorem shaped_map (value : TypeRef) : (map value).Shaped :=
  ⟨⟨fun _ => rfl, fun _ => rfl⟩, fun _ => ⟨rfl, rfl⟩, fun h => absurd rfl h, fun h => absurd rfl h⟩

theorem Made.shaped (h : spec.Made) : spec.Shaped := by
  cases h with
  | one type => exact shaped_one type
  | many type => exact (shaped_one type).many (kind_one type)
  | map value => exact shaped_map value

end FieldSpec

/-- The kind of the type says which fields it has, and the kinds of these say how they hold their
types. -/
structure CatalogType.Shaped (type : CatalogType) : Prop where
  fields : ∀ f ∈ type.fields, f.spec.Shaped
  map : type.kind = .map → type.isOpen = true ∧ ∃ f, type.fields = [f] ∧ f.kind = .map
  named : type.kind = .scalarAlias →
    type.fields.length ≤ 1 ∧ ∀ f ∈ type.fields, f.name = "value"
  choice : type.kind = .oneOfWrapper → ∀ f ∈ type.fields, f.repeated = false ∧
    (f.kind = .reference ∨ f.kind = .scalar ∧ f.type = .primitive .bool)

namespace CatalogType

variable {type : CatalogType}

theorem shaped_of_struct (hkind : type.kind = .struct) (h : ∀ f ∈ type.fields, f.spec.Made) :
    type.Shaped := by
  refine ⟨fun f hf => (h f hf).shaped, ?_, ?_, ?_⟩ <;> rw [hkind] <;> nofun

theorem Shaped.describe (h : type.Shaped) (description : Option String) :
    Shaped { type with description := description } :=
  ⟨h.fields, h.map, h.named, h.choice⟩

end CatalogType

namespace Builder

variable {b : Builder} {r : Request} {p p' : Progress} {type : CatalogType}

/-- Whatever a schema looks like, a field that can hold its values is one of the three. -/
theorem made_specOf {stub : String} {s : Schema} {spec : FieldSpec}
    (h : b.specOf stub s = some spec) : spec.Made := by
  rw [specOf_eq] at h
  generalize hholding : s.holding = holding at h
  cases holding with
  | follows reference =>
    cases h
    exact .one _
  | plainly found =>
    cases h
    rcases Schema.cases_of_plainly hholding with ⟨p, rfl⟩ | ⟨_, rfl⟩ | ⟨_, rfl⟩
    · exact .one _
    · exact .many _
    · exact .map _
  | list element segment =>
    obtain ⟨found, _, rfl⟩ := Option.map_eq_some_iff.1 h
    exact .many _
  | table value =>
    dsimp only at h
    generalize b.specOf (stub ++ "Value") value = found at h
    cases found <;> cases h <;> exact .map _
  | typed asChoice =>
    cases h
    exact .one _
  | refused code message => cases h

theorem made_fieldFor {stub path : String} {s : Schema} {found : Option FieldSpec}
    (h : (b.fieldFor stub path s).run p = .ok (found, p')) : ∀ spec ∈ found, spec.Made :=
  fun _ hspec => made_specOf ((spec_of_run b h).1.symm.trans hspec)

theorem made_propertyField {name key : String} {s : Schema} {found : Option Field}
    (h : (b.propertyField name key s).run p = .ok (found, p')) : ∀ f ∈ found, f.spec.Made := by
  obtain ⟨spec, p₁, hspec, h⟩ := run_bind h
  cases h
  intro f hf
  obtain ⟨spec, rfl, rfl⟩ := Option.map_eq_some_iff.1 hf
  exact made_fieldFor hspec spec rfl

theorem made_patternField {name pattern : String} {s : Schema} {found : Option Field}
    (h : (b.patternField name pattern s).run p = .ok (found, p')) : ∀ f ∈ found, f.spec.Made := by
  intro f hf
  unfold patternField at h
  dsimp only at h
  split at h
  · cases h
    cases hf
  · obtain ⟨spec, p₁, _, h⟩ := run_bind h
    cases spec with
    | none =>
      cases h
      cases hf
    | some spec =>
      obtain ⟨value, p₂, _, h⟩ := run_bind h
      cases h
      cases hf
      exact .map value

theorem made_collectFields {step : String → Schema → BuildM (Option Field)}
    {table : List (String × Schema)} {fields : List Field}
    (h : (collectFields step table).run p = .ok (fields, p'))
    (hstep : ∀ key s p p' found, (step key s).run p = .ok (found, p') → ∀ f ∈ found, f.spec.Made) :
    ∀ f ∈ fields, f.spec.Made := by
  induction table generalizing p fields with
  | nil =>
    cases h
    exact fun f hf => absurd hf List.not_mem_nil
  | cons entry rest ih =>
    obtain ⟨found, p₁, hfound, h⟩ := run_bind h
    obtain ⟨others, p₂, hothers, h⟩ := run_bind h
    cases h
    intro f hf
    rcases List.mem_append.1 hf with hf | hf
    · exact hstep _ _ _ _ _ hfound f (Option.mem_toList.1 hf)
    · exact ih hothers f hf

theorem collectFields_nil {step : String → Schema → BuildM (Option Field)} {fields : List Field}
    (h : (collectFields step []).run p = .ok (fields, p')) : fields = [] := by
  cases h
  rfl

theorem properties_of_undeclared {s : Schema} {value : Option TypeRef} {type : TypeRef}
    (h : (if s.isEmpty then some (.primitive .any)
      else if s.properties.isSome then none else value) = some type) : s.properties = none := by
  split at h
  · rename_i hempty
    rw [Schema.isEmpty_iff.1 hempty]
  · split at h
    · cases h
    · exact Option.not_isSome_iff_eq_none.1 ‹_›

theorem kind_object (properties patternFields : List Field) (value : Option TypeRef) :
    (b.object r properties patternFields value).kind = .map ∧ r.schema.patternProperties = none ∧
        (∃ type, (if r.schema.isEmpty then some (.primitive .any) else value) = some type) ∨
      (b.object r properties patternFields value).kind = .struct := by
  unfold object
  dsimp only
  generalize (if r.schema.isEmpty then some (.primitive .any) else value) = undeclared
  split
  · rename_i hboth
    rw [Bool.and_eq_true, Option.isNone_iff_eq_none, Option.isSome_iff_exists] at hboth
    exact .inl ⟨rfl, hboth.2, hboth.1⟩
  · exact .inr rfl

/-- An object is a table where it has neither properties nor patterns, and then nothing stands
beside the field for undeclared keys. -/
theorem shaped_buildObject (h : (b.buildObject r).run p = .ok (type, p')) : type.Shaped := by
  obtain ⟨properties, p₁, patternFields, p₂, hproperties, hpatterns, rfl⟩ := run_buildObject h
  have hmade : ∀ value, ∀ f ∈ (b.object r properties patternFields value).fields, f.spec.Made := by
    intro value f hf
    rcases List.mem_append.1 hf with hf | hf
    · rcases List.mem_append.1 hf with hf | hf
      · exact made_collectFields hproperties (fun _ _ _ _ _ => made_propertyField) f hf
      · exact made_collectFields hpatterns (fun _ _ _ _ _ => made_patternField) f hf
    · obtain ⟨value, _, rfl⟩ := List.mem_map.1 hf
      exact .map value
  rcases kind_object properties patternFields
      (if r.schema.properties.isSome then none else b.undeclared r.stub r.schema) with
    ⟨hkind, hnone, value, hvalue⟩ | hkind
  · have hpropertiesNone := properties_of_undeclared hvalue
    rw [hpropertiesNone] at hproperties
    rw [hnone] at hpatterns
    obtain rfl := collectFields_nil hproperties
    obtain rfl := collectFields_nil hpatterns
    refine ⟨fun f hf => (hmade _ f hf).shaped, fun _ => ?_, ?_, ?_⟩
    · unfold object
      simp only [hvalue]
      exact ⟨by simp, _, rfl, rfl⟩
    · rw [hkind]
      nofun
    · rw [hkind]
      nofun
  · exact CatalogType.shaped_of_struct hkind (hmade _)

theorem made_of_alternative {f : Field} (h : f.IsAlternative) : f.spec.Made := by
  obtain hspec | ⟨name, hspec⟩ := h <;> rw [hspec] <;> exact .one _

theorem shaped_buildChoice (h : (b.buildChoice r).run p = .ok (type, p')) : type.Shaped := by
  obtain ⟨fields, p₁, hfields, h⟩ := run_bind h
  cases h
  have halternatives := (ensures_memberFields _ _ _ _ _).of_ok hfields
  refine ⟨fun f hf => (made_of_alternative (halternatives f hf)).shaped, nofun, nofun, ?_⟩
  intro _ f hf
  obtain hspec | ⟨name, hspec⟩ := halternatives f hf
  · cases f
    cases hspec
    exact ⟨rfl, .inr ⟨rfl, rfl⟩⟩
  · cases f
    cases hspec
    exact ⟨rfl, .inl rfl⟩

theorem shaped_buildPair (h : (b.buildPair r).run p = .ok (type, p')) : type.Shaped := by
  unfold buildPair at h
  dsimp only at h
  split at h
  · obtain ⟨_, q, _, h⟩ := run_bind h
    cases h
    exact CatalogType.shaped_of_struct rfl fun f hf => absurd hf List.not_mem_nil
  · obtain ⟨fields, q, hfields, h⟩ := run_bind h
    cases h
    have halternatives := (ensures_memberFields _ _ _ _ _).of_ok hfields
    exact CatalogType.shaped_of_struct rfl fun f hf => made_of_alternative (halternatives f hf)

theorem shaped_buildAlias (h : (b.buildAlias r).run p = .ok (type, p')) : type.Shaped := by
  obtain ⟨found, q, hfound, h⟩ := run_bind h
  cases h
  have hfields : ∀ f ∈ found.toList.map fun spec => b.field spec "value" none,
      f.spec.Made ∧ f.name = "value" := by
    intro f hf
    obtain ⟨spec, hspec, rfl⟩ := List.mem_map.1 hf
    exact ⟨made_fieldFor hfound spec (Option.mem_toList.1 hspec), rfl⟩
  refine ⟨fun f hf => (hfields f hf).1.shaped, nofun, fun _ => ⟨?_, fun f hf => (hfields f hf).2⟩,
    nofun⟩
  rw [List.length_map]
  exact Option.length_toList_le

/-- Each way to build a type keeps what its kind says. -/
theorem shaped_buildType (h : (b.buildType r).run p = .ok (type, p')) : type.Shaped := by
  unfold buildType at h
  cases hform : formOf r with
  | choice =>
    rw [hform] at h
    obtain ⟨built, q, hbuilt, h⟩ := run_bind h
    cases h
    exact (shaped_buildChoice hbuilt).describe _
  | object =>
    rw [hform] at h
    obtain ⟨built, q, hbuilt, h⟩ := run_bind h
    cases h
    exact (shaped_buildObject hbuilt).describe _
  | pair =>
    rw [hform] at h
    obtain ⟨built, q, hbuilt, h⟩ := run_bind h
    cases h
    exact (shaped_buildPair hbuilt).describe _
  | «alias» =>
    rw [hform] at h
    obtain ⟨built, q, hbuilt, h⟩ := run_bind h
    cases h
    exact (shaped_buildAlias hbuilt).describe _

end Builder

namespace Operation.Site

open Builder

variable {site : Site} {b : Builder} {method : String} {p p' : Progress} {type : CatalogType}

theorem made_field {name path : String} {s : Schema} {description : Option String}
    {found : Option Field}
    (h : (field b method name path s description).run p = .ok (found, p')) :
    ∀ f ∈ found, f.spec.Made := by
  obtain ⟨normal, q, _, h⟩ := run_bind h
  obtain ⟨spec, q', hspec, h⟩ := run_bind h
  cases h
  intro f hf
  obtain ⟨spec, rfl, rfl⟩ := Option.map_eq_some_iff.1 hf
  exact made_fieldFor hspec spec rfl

theorem finds_made (parts : List Json) (declares : String → Schema → Prop) :
    site.Finds method b parts declares (·.spec.Made) fun _ => True where
  follow _ _ := trivial
  read _ := trivial
  field _ _ _ p :=
    (ensures_run _ p).mono (fun _ _ hrun f hf _ => made_field hrun f hf) fun _ _ => trivial

theorem shaped_parametersType {shared : List Json}
    (h : (site.parametersType b method shared).run p = .ok (type, p')) : type.Shaped := by
  obtain ⟨hkind, hfields⟩ := ((finds_made _ _).parametersType p).of_ok h
  exact CatalogType.shaped_of_struct hkind hfields

theorem shaped_responsesType
    (h : (site.responsesType b method).run p = .ok (type, p')) : type.Shaped := by
  obtain ⟨hkind, hfields⟩ := ((finds_made _ _).responsesType p).of_ok h
  exact CatalogType.shaped_of_struct hkind hfields

end Operation.Site

namespace Setup

open Builder

/-- Every type of a catalog is as its kind says: a table is open and has nothing but the field for
its values, a name for something has at most the field for that, and a choice has fields of single
references and booleans. Every field is as its kind says as well. -/
theorem compile_shaped {setup : Setup} {document : Json} {c : Compilation}
    (h : setup.compile document = .ok c) : ∀ type ∈ c.catalog.types, type.Shaped := by
  intro type htype
  obtain ⟨course⟩ := compile_course h
  rcases course.run_type htype with ⟨e, _, _, q, q', hrun⟩ | ⟨site, shared, q, q', _, hrun⟩
  · exact shaped_buildType hrun
  · rcases hrun with hparameters | hresponses
    · exact Operation.Site.shaped_parametersType hparameters
    · exact Operation.Site.shaped_responsesType hresponses

/-- A document with a type of each kind: a definition of each but the last is an object, and the
operations have types of their own. -/
def kindsDocument : Json :=
  .object [("swagger", .string "2.0"), ("definitions", .object [
    ("Pet", .object [("type", .string "object"), ("properties", .object [
      ("names", .object [("type", .string "array"), ("items", .object [
        ("type", .string "object"), ("additionalProperties", .object [
          ("type", .string "string")])])])])]),
    ("Counts", .object [("type", .string "object"),
      ("additionalProperties", .object [("type", .string "integer")])]),
    ("PetOrFlag", .object [("oneOf", .array [.object [("$ref", .string "#/definitions/Pet")],
      .object [("type", .string "boolean")]])]),
    ("Tags", .object [("type", .string "array"), ("items", .object [
      ("type", .string "string")])])]),
    ("paths", .object [("/pets", .object [("get", .object [("operationId", .string "getPets"),
      ("responses", .object [("200", .object [("schema", .object [
        ("$ref", .string "#/definitions/Tags")])])])])])])]

theorem compile_shaped_kindsDocument : ∃ c, compile {} kindsDocument = .ok c ∧
    c.catalog.types.map (fun type => (type.name, type.kind)) =
      [("Pet", .struct), ("Counts", .map), ("PetOrFlag", .oneOfWrapper), ("Tags", .scalarAlias),
        ("NamesItem", .map), ("GetPetsResponses", .struct)] ∧
    ∀ type ∈ c.catalog.types, type.Shaped := by
  have hresult : (compile {} kindsDocument).toOption.map (fun c =>
      c.catalog.types.map fun type => (type.name, type.kind)) =
      some [("Pet", .struct), ("Counts", .map), ("PetOrFlag", .oneOfWrapper),
        ("Tags", .scalarAlias), ("NamesItem", .map), ("GetPetsResponses", .struct)] := by
    decide +kernel
  obtain ⟨c, hc, hkinds⟩ := Option.map_eq_some_iff.1 hresult
  have hcompile := eq_ok_of_toOption hc
  exact ⟨c, hcompile, hkinds, compile_shaped hcompile⟩

end Setup

end SchemaCatalog
