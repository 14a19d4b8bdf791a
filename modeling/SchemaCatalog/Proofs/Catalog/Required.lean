import SchemaCatalog.Proofs.Catalog.Objects
import SchemaCatalog.Proofs.Catalog.Overriding
import SchemaCatalog.Proofs.Schema.Algebra

namespace SchemaCatalog

theorem Catalog.mem_offerAll {c : Catalog} {types : List CatalogType} {type : CatalogType}
    (h : type ∈ (Builder.offerAll c types).types) : type ∈ c.types ∨ type ∈ types := by
  induction types generalizing c with
  | nil => exact .inl h
  | cons first rest ih =>
    rcases ih (c := c.addType first) h with hthere | hrest
    · rcases Catalog.mem_addType hthere with hold | heq
      · exact .inl hold
      · exact .inr (heq ▸ List.mem_cons_self)
    · exact .inr (List.mem_cons_of_mem _ hrest)

namespace Builder

variable {b : Builder} {r : Request} {p p' : Progress} {type : CatalogType}

theorem run_lift {α : Type} {x : Outcome α} {a : α}
    (h : (liftM x : BuildM α).run p = .ok (a, p')) : x = .ok a := by
  cases x with
  | error e => cases h
  | ok value =>
    cases h
    rfl

theorem required_of_described {x : BuildM CatalogType} {description : Option String}
    (h : (do return { ← x with description := description } : BuildM CatalogType).run p =
      .ok (type, p')) :
    ∃ built q, x.run p = .ok (built, q) ∧ type.required = built.required := by
  obtain ⟨built, q, hbuilt, h⟩ := run_bind h
  cases h
  exact ⟨built, p', hbuilt, rfl⟩

theorem required_of_buildPair (h : (b.buildPair r).run p = .ok (type, p')) :
    type.required = [] := by
  unfold buildPair at h
  dsimp only at h
  split at h
  · obtain ⟨_, q, _, h⟩ := run_bind h
    cases h
    rfl
  · obtain ⟨fields, q, _, h⟩ := run_bind h
    cases h
    rfl

/-- A type that is built for a request requires no name twice, however often its schema lists it. -/
theorem required_of_buildType (h : (b.buildType r).run p = .ok (type, p')) :
    type.required.Nodup := by
  unfold buildType at h
  cases hform : formOf r with
  | choice =>
    rw [hform] at h
    obtain ⟨built, q, hbuilt, hrequired⟩ := required_of_described h
    obtain ⟨fields, q', _, hbuilt⟩ := run_bind hbuilt
    cases hbuilt
    rw [hrequired]
    exact List.nodup_nil
  | object =>
    rw [hform] at h
    obtain ⟨built, q, hbuilt, hrequired⟩ := required_of_described h
    obtain ⟨_, _, _, _, _, _, hobject⟩ := run_buildObject hbuilt
    rw [hrequired, hobject]
    exact nodup_appendNew List.nodup_nil _
  | pair =>
    rw [hform] at h
    obtain ⟨built, q, hbuilt, hrequired⟩ := required_of_described h
    rw [hrequired, required_of_buildPair hbuilt]
    exact List.nodup_nil
  | «alias» =>
    rw [hform] at h
    obtain ⟨built, q, hbuilt, hrequired⟩ := required_of_described h
    obtain ⟨spec, q', _, hbuilt⟩ := run_bind hbuilt
    cases hbuilt
    rw [hrequired]
    exact List.nodup_nil

def holds (b : Builder) (schema : Schema) : Bool :=
  match b.normalForm schema with
  | .ok normal => (b.specOf "" normal).isSome
  | .error _ => false

end Builder

namespace Operation

namespace Site

open Builder

variable (site : Site) (b : Builder)

def requiredParameter? (parameter : Json) : Option String :=
  match parameter.stringMember? "name", parameterSchema site.dialect parameter with
  | some name, .ok (some schema) =>
    if isRequired parameter && b.holds schema then some name else none
  | _, _ => none

def requiredBody? : Option String :=
  match (site.operation.member? "requestBody").map site.document.follow with
  | some (.ok body) =>
    match mediaSchema body with
    | .ok (some schema) => if isRequired body && b.holds schema then some "body" else none
    | _ => none
  | _ => none

/-- The names that are required by parameters and by the body, in order and as often. -/
def requiredNames (parameters : List Json) : List String :=
  parameters.filterMap (site.requiredParameter? b) ++ (site.requiredBody? b).toList

variable {site b} {method : String} {p p' : Progress}

theorem run_field {name path : String} {schema : Schema} {description : Option String}
    {found : Option Field}
    (h : (field b method name path schema description).run p = .ok (found, p')) :
    found.isSome = b.holds schema ∧ ∀ f ∈ found, f.name = name := by
  obtain ⟨normal, q, hnormal, h⟩ := run_bind h
  obtain ⟨spec, q', hspec, h⟩ := run_bind h
  cases h
  have hnormal := Outcome.at_eq_ok (run_lift hnormal)
  have hfound : spec.isSome = (b.specOf "" normal).isSome := by
    rw [(spec_of_run b hspec).1, Bool.eq_iff_iff, Option.isSome_iff_ne_none,
      Option.isSome_iff_ne_none, ne_eq, ne_eq, specOf_eq_none_iff, specOf_eq_none_iff]
  constructor
  · rw [Option.isSome_map, hfound, holds, hnormal]
  · intro f hf
    obtain ⟨spec, _, hspec⟩ := Option.map_eq_some_iff.1 hf
    rw [← hspec]
    rfl

theorem required_of_field {name : String} {schema : Schema} {found : Option Field}
    (h : found.isSome = b.holds schema ∧ ∀ f ∈ found, f.name = name)
    (position : Option Position) (source : Json) :
    (found.map fun field => slot field position source).bind Prod.snd =
      if isRequired source && b.holds schema then some name else none := by
  obtain ⟨hheld, hname⟩ := h
  rw [← hheld]
  cases found with
  | none => simp
  | some f =>
    rw [← hname f rfl]
    simp [slot]

theorem required_of_parameterSlot {parameter : Json} {found : Option Slot}
    (h : (site.parameterSlot b method parameter).run p = .ok (found, p')) :
    found.bind Prod.snd = site.requiredParameter? b parameter := by
  unfold parameterSlot at h
  unfold requiredParameter?
  cases hname : parameter.stringMember? "name" with
  | none =>
    rw [hname] at h
    cases h
    rfl
  | some name =>
    rw [hname] at h
    obtain ⟨schema, q, hschema, h⟩ := run_bind h
    rw [run_lift hschema]
    cases schema with
    | none =>
      cases h
      rfl
    | some schema =>
      obtain ⟨field, q', hfield, h⟩ := run_bind h
      cases h
      exact required_of_field (run_field hfield) _ parameter

theorem required_of_parameterSlots {parameters : List Json} {slots : List Slot}
    (h : (site.parameterSlots b method parameters).run p = .ok (slots, p')) :
    slots.filterMap Prod.snd = parameters.filterMap (site.requiredParameter? b) := by
  induction parameters generalizing p slots with
  | nil =>
    cases h
    rfl
  | cons parameter rest ih =>
    obtain ⟨found, q, hfound, h⟩ := run_bind h
    obtain ⟨others, q', hothers, h⟩ := run_bind h
    cases h
    rw [List.filterMap_append, ih hothers, List.filterMap_cons, ← required_of_parameterSlot hfound]
    cases found with
    | none => rfl
    | some slot =>
      obtain ⟨field, required⟩ := slot
      cases required <;> rfl

theorem required_of_bodySlot {found : Option Slot}
    (h : (site.bodySlot b method).run p = .ok (found, p')) :
    found.bind Prod.snd = site.requiredBody? b := by
  unfold bodySlot at h
  unfold requiredBody?
  cases hbody : site.operation.member? "requestBody" with
  | none =>
    rw [hbody] at h
    cases h
    rfl
  | some body =>
    rw [hbody] at h
    obtain ⟨followed, q, hfollow, h⟩ := run_bind h
    obtain ⟨schema, q', hschema, h⟩ := run_bind h
    rw [Option.map_some, run_lift hfollow]
    dsimp only
    rw [run_lift hschema]
    cases schema with
    | none =>
      cases h
      rfl
    | some schema =>
      obtain ⟨field, q'', hfield, h⟩ := run_bind h
      cases h
      exact required_of_field (run_field hfield) _ followed

/-- The parameters type requires a name as often as the merged parameters and the body do. -/
theorem required_of_parametersType {shared : List Json} {type : CatalogType}
    (h : (site.parametersType b method shared).run p = .ok (type, p')) :
    ∃ parameters, mergedParameters site.document site.operation shared = .ok parameters ∧
      (parameters.map parameterKey).Nodup ∧ type.required = site.requiredNames b parameters := by
  obtain ⟨parameters, q, hparameters, h⟩ := run_bind h
  obtain ⟨slots, q', hslots, h⟩ := run_bind h
  obtain ⟨body, q'', hbody, h⟩ := run_bind h
  cases h
  have hmerged := run_lift hparameters
  obtain ⟨followed, _, hmerges⟩ := merges_of_mergeInto hmerged
  refine ⟨parameters, hmerged, hmerges.nodup, ?_⟩
  rw [requiredNames, ← required_of_parameterSlots hslots, ← required_of_bodySlot hbody]
  change (slots ++ body.toList).filterMap Prod.snd = _
  rw [List.filterMap_append]
  cases body with
  | none => rfl
  | some slot =>
    obtain ⟨field, required⟩ := slot
    cases required <;> rfl

theorem required_of_responsesType {type : CatalogType}
    (h : (site.responsesType b method).run p = .ok (type, p')) : type.required = [] := by
  obtain ⟨fields, q, _, h⟩ := run_bind h
  cases h
  rfl

end Site

end Operation

/-- What the types of an operation require: nothing, or what its parameters and its body do. -/
def Operation.Site.Requires (site : Operation.Site) (b : Builder) (shared : List Json)
    (required : List String) : Prop :=
  required = [] ∨ ∃ parameters,
    Operation.mergedParameters site.document site.operation shared = .ok parameters ∧
    (parameters.map Operation.parameterKey).Nodup ∧ required = site.requiredNames b parameters

namespace Builder

theorem Adds.run_offered {b : Builder} {p p' : Progress}
    {sites : List (Operation.Site × List Json)} {offered : List CatalogType}
    (h : Adds b p sites offered p') {type : CatalogType} (htype : type ∈ offered) :
    ∃ site shared q q', (site, shared) ∈ sites ∧
      ((site.parametersType b (site.name b.options.naming) shared).run q = .ok (type, q') ∨
        (site.responsesType b (site.name b.options.naming)).run q = .ok (type, q')) := by
  induction h with
  | done => cases htype
  | @next p p₁ p₂ p₃ p' site shared rest parameters responses method offered hparameters
      hresponses _ _ ih =>
    rcases List.mem_append.1 htype with hown | hrest
    · rcases List.mem_cons.1 (List.mem_filter.1 hown).1 with heq | hlast
      · exact ⟨site, shared, _, _, List.mem_cons_self, .inl (heq ▸ hparameters)⟩
      · exact ⟨site, shared, _, _, List.mem_cons_self,
          .inr (List.mem_singleton.1 hlast ▸ hresponses)⟩
    · obtain ⟨site', shared', q, q', hsite, hrun⟩ := ih hrest
      exact ⟨site', shared', q, q', List.mem_cons_of_mem _ hsite, hrun⟩

end Builder

namespace Setup

open Builder

variable {setup : Setup} {document : Json} {c : Compilation}

namespace Course

variable (course : setup.Course document c) {type : CatalogType}

theorem mem_offered (h : type ∈ c.catalog.types) : type ∈ course.offered := by
  rw [course.types] at h
  exact (Catalog.mem_offerAll h).resolve_left List.not_mem_nil

/-- A type of the catalog was built for a request, or it is that of the parameters or of the
responses of an operation. -/
theorem run_type (h : type ∈ c.catalog.types) :
    (∃ e ∈ course.built ++ course.rest, e.2 = type ∧
      ∃ q q', (course.builder.buildType e.1).run q = .ok (type, q')) ∨
    ∃ site shared q q', (site, shared) ∈ course.sites ∧
      ((site.parametersType course.builder (site.name course.builder.options.naming) shared).run q =
          .ok (type, q') ∨
        (site.responsesType course.builder (site.name course.builder.options.naming)).run q =
          .ok (type, q')) := by
  have hbuilt {e : Request × CatalogType} (he : e ∈ course.built ++ course.rest)
      (heq : e.2 = type) : ∃ e ∈ course.built ++ course.rest, e.2 = type ∧
        ∃ q q', (course.builder.buildType e.1).run q = .ok (type, q') := by
    obtain ⟨q, q', hrun, _⟩ := course.run_built he
    exact ⟨e, he, heq, q, q', heq ▸ hrun⟩
  rcases List.mem_append.1 (course.mem_offered h) with hfirst | hrest
  · rcases List.mem_append.1 hfirst with hdrained | hadded
    · obtain ⟨e, he, heq⟩ := List.mem_map.1 hdrained
      exact .inl (hbuilt (List.mem_append_left _ he) heq)
    · exact .inr (course.adds.run_offered hadded)
  · obtain ⟨e, he, heq⟩ := List.mem_map.1 hrest
    exact .inl (hbuilt (List.mem_append_right _ he) heq)

theorem required (h : type ∈ c.catalog.types) :
    ((∃ e ∈ course.built ++ course.rest, e.2 = type) ∧ type.required.Nodup) ∨
      ∃ site shared, (site, shared) ∈ course.sites ∧
        site.Requires course.builder shared type.required := by
  rcases course.run_type h with ⟨e, he, heq, q, q', hrun⟩ | ⟨site, shared, q, q', hsite, hrun⟩
  · exact .inl ⟨⟨e, he, heq⟩, required_of_buildType hrun⟩
  · refine .inr ⟨site, shared, hsite, ?_⟩
    rcases hrun with hparameters | hresponses
    · exact .inr (Operation.Site.required_of_parametersType hparameters)
    · exact .inl (Operation.Site.required_of_responsesType hresponses)

end Course

/-- A type that was requested requires no name twice. The others are those of operations, which
require nothing or else the names that the required parameters and the body of an operation have. So
no type requires a name twice if these are distinct in every operation. -/
theorem compile_required (h : setup.compile document = .ok c) :
    Nonempty (setup.Course document c) ∧ ∀ course : setup.Course document c,
      (∀ type ∈ c.catalog.types,
        ((∃ e ∈ course.built ++ course.rest, e.2 = type) ∧ type.required.Nodup) ∨
        ∃ site shared, (site, shared) ∈ course.sites ∧
          site.Requires course.builder shared type.required) ∧
      ((∀ site shared parameters, (site, shared) ∈ course.sites →
          Operation.mergedParameters site.document site.operation shared = .ok parameters →
          (site.requiredNames course.builder parameters).Nodup) →
        ∀ type ∈ c.catalog.types, type.required.Nodup) := by
  refine ⟨compile_course h, fun course => ⟨fun type => course.required, ?_⟩⟩
  intro hdistinct type htype
  rcases course.required htype with ⟨_, hnodup⟩ | ⟨site, shared, hsite, hnone | hrequires⟩
  · exact hnodup
  · rw [hnone]
    exact List.nodup_nil
  · obtain ⟨parameters, hmerged, _, hrequired⟩ := hrequires
    rw [hrequired]
    exact hdistinct site shared parameters hsite hmerged

def twinPlaces : Json :=
  .object [("swagger", .string "2.0"), ("paths", .object [
    ("/pets/{id}", .object [("get", .object [("operationId", .string "getPet"),
      ("parameters", .array [
        .object [("name", .string "id"), ("in", .string "path"), ("required", .bool true),
          ("type", .string "string")],
        .object [("name", .string "id"), ("in", .string "query"), ("required", .bool true),
          ("type", .string "string")]])])])])]

theorem compile_twinPlaces : ∃ c, compile {} twinPlaces = .ok c ∧
    ∃ type, c.catalog.types = [type] ∧ type.required = ["id", "id"] := by
  have hresult : (compile {} twinPlaces).toOption.map (·.catalog.types.map (·.required)) =
      some [["id", "id"]] := by
    decide +kernel
  obtain ⟨c, hc, htypes⟩ := Option.map_eq_some_iff.1 hresult
  obtain ⟨type, htype, hrequired⟩ := List.map_eq_singleton_iff.1 htypes
  exact ⟨c, eq_ok_of_toOption hc, type, htype, hrequired⟩

theorem compile_required_twinPlaces : ∃ c, compile {} twinPlaces = .ok c ∧
    ∃ course : Course {} twinPlaces c, ∃ site shared parameters,
      (site, shared) ∈ course.sites ∧
      Operation.mergedParameters site.document site.operation shared = .ok parameters ∧
      site.requiredNames course.builder parameters = ["id", "id"] := by
  obtain ⟨c, hc, type, htypes, hrequired⟩ := compile_twinPlaces
  obtain ⟨⟨course⟩, hcourse⟩ := compile_required hc
  have htype : type ∈ c.catalog.types := htypes ▸ List.mem_singleton_self type
  rcases (hcourse course).1 type htype with ⟨_, hnodup⟩ | ⟨site, shared, hsite, hrequires⟩
  · rw [hrequired] at hnodup
    exact absurd hnodup (by decide)
  · rw [hrequired] at hrequires
    rcases hrequires with hnone | ⟨parameters, hmerged, _, hnames⟩
    · cases hnone
    · exact ⟨c, hc, course, site, shared, parameters, hsite, hmerged, hnames.symm⟩

/-- A type can require a name twice. -/
theorem exists_required_twice : ¬ ∀ {setup : Setup} {document : Json} {c : Compilation},
    setup.compile document = .ok c → ∀ type ∈ c.catalog.types, type.required.Nodup := by
  intro hclaim
  obtain ⟨c, hc, type, htypes, hrequired⟩ := compile_twinPlaces
  have hnodup := hclaim hc type (htypes ▸ List.mem_singleton_self type)
  rw [hrequired] at hnodup
  exact absurd hnodup (by decide)

end Setup

end SchemaCatalog
