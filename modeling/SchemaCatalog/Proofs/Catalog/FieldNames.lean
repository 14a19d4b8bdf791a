import SchemaCatalog.Proofs.Naming
import SchemaCatalog.Proofs.Catalog.MethodTypes
import SchemaCatalog.Proofs.Catalog.Required
import SchemaCatalog.Proofs.Catalog.Slots

namespace SchemaCatalog

def Field.label (f : Field) : String × String := (f.name, f.fieldName)

def Naming.label (convention : NamingConvention) (name : String) : String × String :=
  (name, fieldName name convention)

namespace Builder

variable (b : Builder)

def label (name : String) : String × String := Naming.label b.options.naming name

def fits (s : Schema) : Bool := (b.specOf "" s).isSome

def propertyName? (entry : String × Schema) : Option String :=
  if b.fits entry.2 then some entry.1 else none

def patternName? (entry : String × Schema) : Option String :=
  if b.fits entry.2 then b.options.patternNames.lookup entry.1 else none

def undeclaredName? (r : Request) : Option String :=
  if r.schema.isEmpty || r.schema.properties.isNone && (b.undeclared r.stub r.schema).isSome then
    some "additionalProperties"
  else none

def memberName? (member : Schema) : Option String :=
  match member.reference with
  | some reference => some (b.memberName reference)
  | none => if member.typeName? == some "boolean" then some "boolean" else none

def namesOf (r : Request) : List String :=
  match formOf r with
  | .choice => (r.schema.oneOf.getD []).filterMap b.memberName?
  | .object =>
    (r.schema.properties.getD []).filterMap b.propertyName? ++
      (r.schema.patternProperties.getD []).filterMap b.patternName? ++
      (b.undeclaredName? r).toList
  | .pair =>
    if (r.schema.anyOf.getD []).length = 2 then (r.schema.anyOf.getD []).filterMap b.memberName?
    else []
  | .alias => if b.fits r.schema then ["value"] else []

variable {b} {r : Request} {p p' : Progress} {type : CatalogType}

theorem isSome_specOf (stub : String) (s : Schema) : (b.specOf stub s).isSome = b.fits s := by
  rw [fits, Bool.eq_iff_iff, Option.isSome_iff_ne_none, Option.isSome_iff_ne_none, ne_eq, ne_eq,
    specOf_eq_none_iff, specOf_eq_none_iff]

theorem isSome_of_fieldFor {stub path : String} {s : Schema} {spec : Option FieldSpec}
    (h : (b.fieldFor stub path s).run p = .ok (spec, p')) : spec.isSome = b.fits s := by
  rw [(spec_of_run b h).1, isSome_specOf]

/-- Fields that are found one after the other are labelled like the names that they are found
for. -/
theorem labels_append {found : Option Field} {name : Option String} {fields : List Field}
    {names : List String} (hfound : found.map Field.label = name.map b.label)
    (hfields : fields.map Field.label = names.map b.label) :
    (found.toList ++ fields).map Field.label = (name.toList ++ names).map b.label := by
  rw [List.map_append, List.map_append, ← Option.toList_map, ← Option.toList_map, hfound, hfields]

theorem label_of_propertyField {name key : String} {s : Schema} {found : Option Field}
    (h : (b.propertyField name key s).run p = .ok (found, p')) :
    found.map Field.label = (b.propertyName? (key, s)).map b.label := by
  obtain ⟨spec, q, hspec, h⟩ := run_bind h
  cases h
  rw [propertyName?, ← isSome_of_fieldFor hspec]
  cases spec <;> rfl

theorem label_of_patternField {name pattern : String} {s : Schema} {found : Option Field}
    (h : (b.patternField name pattern s).run p = .ok (found, p')) :
    found.map Field.label = (b.patternName? (pattern, s)).map b.label := by
  unfold patternField at h
  dsimp only at h
  split at h
  · rename_i hnone
    cases h
    rw [patternName?, hnone, ite_self]
    rfl
  · rename_i configured hconfigured
    obtain ⟨spec, q, hspec, h⟩ := run_bind h
    rw [patternName?, ← isSome_of_fieldFor hspec, hconfigured]
    cases spec with
    | none =>
      cases h
      rfl
    | some spec =>
      obtain ⟨value, q', _, h⟩ := run_bind h
      cases h
      rfl

theorem labels_of_collectFields {step : String → Schema → BuildM (Option Field)}
    {named : String × Schema → Option String} {table : List (String × Schema)}
    {fields : List Field} (h : (collectFields step table).run p = .ok (fields, p'))
    (hstep : ∀ key s p p' found, (step key s).run p = .ok (found, p') →
      found.map Field.label = (named (key, s)).map b.label) :
    fields.map Field.label = (table.filterMap named).map b.label := by
  rw [List.filterMap_eq_flatMap_toList]
  induction table generalizing p fields with
  | nil =>
    cases h
    rfl
  | cons entry rest ih =>
    obtain ⟨found, q, hfound, h⟩ := run_bind h
    obtain ⟨others, q', hothers, h⟩ := run_bind h
    cases h
    exact labels_append (hstep _ _ _ _ _ hfound) (ih hothers)

theorem labels_of_buildObject (h : (b.buildObject r).run p = .ok (type, p')) :
    type.fields.map Field.label =
      ((r.schema.properties.getD []).filterMap b.propertyName? ++
        (r.schema.patternProperties.getD []).filterMap b.patternName? ++
        (b.undeclaredName? r).toList).map b.label := by
  obtain ⟨properties, q, patternFields, q', hproperties, hpatterns, rfl⟩ := run_buildObject h
  have hfirst := labels_of_collectFields hproperties fun _ _ _ _ _ => label_of_propertyField
  have hsecond := labels_of_collectFields hpatterns fun _ _ _ _ _ => label_of_patternField
  rw [object, List.map_append, List.map_append, hfirst, hsecond, List.map_append, List.map_append]
  congr 1
  -- the field for undeclared keys is there for the same schemas as its name
  rw [undeclaredName?]
  cases r.schema.isEmpty with
  | true => rfl
  | false =>
    cases r.schema.properties with
    | some table => rfl
    | none => cases b.undeclared r.stub r.schema <;> rfl

theorem label_of_memberField {path keyword : String} {member : Schema} {found : Option Field}
    (h : (b.memberField path keyword member).run p = .ok (found, p')) :
    found.map Field.label = (b.memberName? member).map b.label := by
  unfold memberField at h
  unfold memberName?
  cases hreference : member.reference with
  | some reference =>
    rw [hreference] at h
    dsimp only at h ⊢
    rw [memberName]
    generalize (if (Reference.parse reference).name.isEmpty then b.rootName
      else (Reference.parse reference).name) = name at h ⊢
    obtain ⟨spec, q, _, h⟩ := run_bind h
    cases h
    rfl
  | none =>
    rw [hreference] at h
    dsimp only at h ⊢
    by_cases hboolean : (member.typeName? == some "boolean") = true
    · rw [if_pos hboolean] at h
      cases h
      rw [if_pos hboolean]
      rfl
    · rw [if_neg hboolean] at h
      cases h
      rw [if_neg hboolean]
      rfl

theorem labels_of_memberFields {path keyword : String} {i : Nat} {members : List Schema}
    {fields : List Field}
    (h : (b.memberFields path keyword i members).run p = .ok (fields, p')) :
    fields.map Field.label = (members.filterMap b.memberName?).map b.label := by
  rw [List.filterMap_eq_flatMap_toList]
  induction members generalizing p fields i with
  | nil =>
    cases h
    rfl
  | cons member rest ih =>
    obtain ⟨found, q, hfound, h⟩ := run_bind h
    obtain ⟨others, q', hothers, h⟩ := run_bind h
    cases h
    exact labels_append (label_of_memberField hfound) (ih hothers)

theorem labels_of_buildPair (h : (b.buildPair r).run p = .ok (type, p')) :
    type.fields.map Field.label =
      (if (r.schema.anyOf.getD []).length = 2 then
        (r.schema.anyOf.getD []).filterMap b.memberName? else []).map b.label := by
  unfold buildPair at h
  dsimp only at h
  split at h
  · rename_i hlength
    obtain ⟨_, q, _, h⟩ := run_bind h
    cases h
    rw [if_neg (by simpa using hlength)]
    rfl
  · rename_i hlength
    obtain ⟨fields, q, hfields, h⟩ := run_bind h
    cases h
    rw [if_pos (by simpa using hlength)]
    exact labels_of_memberFields hfields

theorem labels_of_buildAlias (h : (b.buildAlias r).run p = .ok (type, p')) :
    type.fields.map Field.label = (if b.fits r.schema then ["value"] else []).map b.label := by
  obtain ⟨spec, q, hspec, h⟩ := run_bind h
  cases h
  rw [← isSome_of_fieldFor hspec]
  cases spec <;> rfl

/-- The fields of a type that is built for a request have the names that its schema declares. -/
theorem labels_of_buildType (h : (b.buildType r).run p = .ok (type, p')) :
    type.fields.map Field.label = (b.namesOf r).map b.label := by
  unfold buildType at h
  unfold namesOf
  cases hform : formOf r with
  | choice =>
    rw [hform] at h
    obtain ⟨choice, q, hchoice, h⟩ := run_bind h
    obtain ⟨fields, q', hfields, hchoice⟩ := run_bind hchoice
    cases hchoice
    cases h
    exact labels_of_memberFields hfields
  | object =>
    rw [hform] at h
    obtain ⟨object, q, hobject, h⟩ := run_bind h
    cases h
    have hlabels := labels_of_buildObject hobject
    exact hlabels
  | pair =>
    rw [hform] at h
    obtain ⟨pair, q, hpair, h⟩ := run_bind h
    cases h
    have hlabels := labels_of_buildPair hpair
    exact hlabels
  | «alias» =>
    rw [hform] at h
    obtain ⟨name, q, hname, h⟩ := run_bind h
    cases h
    have hlabels := labels_of_buildAlias hname
    exact hlabels

end Builder

namespace Operation.Site

open Builder

variable (site : Site) (b : Builder)

def parameterName? (parameter : Json) : Option String :=
  match parameter.stringMember? "name", parameterSchema site.dialect parameter with
  | some name, .ok (some schema) => if b.holds schema then some name else none
  | _, _ => none

def bodyName? : Option String :=
  match site.bodySchema with
  | .ok (some schema) => if b.holds schema then some "body" else none
  | _ => none

def responseName? (entry : String × Json) : Option String :=
  match site.document.follow entry.2 >>= responseSchema site.dialect with
  | .ok (some schema) => if b.holds schema then some entry.1 else none
  | _ => none

def parameterNames (parameters : List Json) : List String :=
  parameters.filterMap (site.parameterName? b) ++ (site.bodyName? b).toList

def responseNames : List String := site.responses.filterMap (site.responseName? b)

variable {site b} {method : String} {p p' : Progress} {type : CatalogType}

theorem label_of_field {name path : String} {schema : Schema} {description : Option String}
    {found : Option Field}
    (h : (field b method name path schema description).run p = .ok (found, p')) :
    found.map Field.label = (if b.holds schema then some name else none).map b.label := by
  rw [← (run_field h).1]
  obtain ⟨normal, q, _, h⟩ := run_bind h
  obtain ⟨spec, q', _, h⟩ := run_bind h
  cases h
  cases spec <;> rfl

theorem label_of_slot {x : BuildM (Option Field)} {position : Option Position} {source : Json}
    {name : Option String} {found : Option Slot}
    (h : (do return (← x).map fun field => slot field position source : BuildM _).run p =
      .ok (found, p'))
    (hx : ∀ f q, x.run p = .ok (f, q) → f.map Field.label = name.map b.label) :
    (found.map Prod.fst).map Field.label = name.map b.label := by
  obtain ⟨f, _, hf, h⟩ := run_bind h
  cases h
  rw [← hx f _ hf]
  cases f <;> rfl

theorem label_of_parameterSlot {parameter : Json} {found : Option Slot}
    (h : (site.parameterSlot b method parameter).run p = .ok (found, p')) :
    (found.map Prod.fst).map Field.label = (site.parameterName? b parameter).map b.label := by
  unfold parameterSlot at h
  unfold parameterName?
  cases hname : parameter.stringMember? "name" with
  | none =>
    rw [hname] at h
    cases h
    rfl
  | some name =>
    rw [hname] at h
    obtain ⟨schema, q, hschema, h⟩ := run_bind h
    rw [run_lift hschema]
    cases schema with
    | none =>
      cases h
      rfl
    | some schema => exact label_of_slot h fun f q' hf => label_of_field hf

theorem labels_of_parameterSlots {parameters : List Json} {slots : List Slot}
    (h : (site.parameterSlots b method parameters).run p = .ok (slots, p')) :
    (slots.map Prod.fst).map Field.label =
      (parameters.filterMap (site.parameterName? b)).map b.label := by
  rw [List.filterMap_eq_flatMap_toList]
  induction parameters generalizing p slots with
  | nil =>
    cases h
    rfl
  | cons parameter rest ih =>
    obtain ⟨found, q, hfound, h⟩ := run_bind h
    obtain ⟨others, q', hothers, h⟩ := run_bind h
    cases h
    rw [List.map_append, ← Option.toList_map]
    exact labels_append (label_of_parameterSlot hfound) (ih hothers)

theorem label_of_bodySlot {found : Option Slot}
    (h : (site.bodySlot b method).run p = .ok (found, p')) :
    (found.map Prod.fst).map Field.label = (site.bodyName? b).map b.label := by
  unfold bodySlot at h
  unfold bodyName? bodySchema
  cases hbody : site.operation.member? "requestBody" with
  | none =>
    rw [hbody] at h
    cases h
    rfl
  | some body =>
    rw [hbody] at h
    obtain ⟨followed, q, hfollow, h⟩ := run_bind h
    obtain ⟨schema, q', hschema, h⟩ := run_bind h
    dsimp only
    rw [run_lift hfollow]
    change _ = Option.map b.label (match mediaSchema followed with
      | .ok (some schema) => if b.holds schema then some "body" else none
      | _ => none)
    rw [run_lift hschema]
    cases schema with
    | none =>
      cases h
      rfl
    | some schema => exact label_of_slot h fun f _ hf => label_of_field hf

theorem labels_of_parametersType {shared : List Json}
    (h : (site.parametersType b method shared).run p = .ok (type, p')) :
    ∃ parameters, mergedParameters site.document site.operation shared = .ok parameters ∧
      type.fields.map Field.label = (site.parameterNames b parameters).map b.label := by
  obtain ⟨parameters, q, hparameters, h⟩ := run_bind h
  obtain ⟨slots, q', hslots, h⟩ := run_bind h
  obtain ⟨body, q'', hbody, h⟩ := run_bind h
  cases h
  refine ⟨parameters, run_lift hparameters, ?_⟩
  change ((slots ++ body.toList).map Prod.fst).map Field.label = _
  rw [parameterNames, List.map_append, List.map_append, List.map_append,
    labels_of_parameterSlots hslots, ← Option.toList_map, ← Option.toList_map,
    ← Option.toList_map, label_of_bodySlot hbody]

theorem label_of_responseField {code : String} {response : Json} {found : Option Field}
    (h : (site.responseField b method code response).run p = .ok (found, p')) :
    found.map Field.label = (site.responseName? b (code, response)).map b.label := by
  obtain ⟨followed, q, hfollow, h⟩ := run_bind h
  obtain ⟨schema, q', hschema, h⟩ := run_bind h
  unfold responseName?
  rw [run_lift hfollow]
  change _ = Option.map b.label (match responseSchema site.dialect followed with
    | .ok (some schema) => if b.holds schema then some code else none
    | _ => none)
  rw [run_lift hschema]
  cases schema with
  | none =>
    obtain ⟨_, _, _, h⟩ := run_bind h
    cases h
    rfl
  | some schema => exact label_of_field h

theorem labels_of_responseFields {responses : List (String × Json)} {fields : List Field}
    (h : (site.responseFields b method responses).run p = .ok (fields, p')) :
    fields.map Field.label = (responses.filterMap (site.responseName? b)).map b.label := by
  rw [List.filterMap_eq_flatMap_toList]
  induction responses generalizing p fields with
  | nil =>
    cases h
    rfl
  | cons entry rest ih =>
    obtain ⟨found, q, hfound, h⟩ := run_bind h
    obtain ⟨others, q', hothers, h⟩ := run_bind h
    cases h
    exact labels_append (label_of_responseField hfound) (ih hothers)

theorem labels_of_responsesType
    (h : (site.responsesType b method).run p = .ok (type, p')) :
    type.fields.map Field.label = (site.responseNames b).map b.label := by
  obtain ⟨fields, q, hfields, h⟩ := run_bind h
  cases h
  exact labels_of_responseFields hfields

end Operation.Site

namespace Setup

open Builder

variable {setup : Setup} {document : Json} {c : Compilation}

namespace Course

variable (course : setup.Course document c)

/-- The names that the document gives to the fields of a type: the schema of the request that it was
built for, the parameters and the body of an operation, or its responses. -/
inductive Names (type : CatalogType) : List String → Prop
  | request {e : Request × CatalogType} : e ∈ course.built ++ course.rest → e.2 = type →
    Names type (course.builder.namesOf e.1)
  | parameters {site : Operation.Site} {shared parameters : List Json} :
    (site, shared) ∈ course.sites →
    type.name = course.builder.typeName
      (site.name course.builder.options.naming ++ "Parameters") →
    Operation.mergedParameters site.document site.operation shared = .ok parameters →
    Names type (site.parameterNames course.builder parameters)
  | responses {site : Operation.Site} {shared : List Json} : (site, shared) ∈ course.sites →
    type.name = course.builder.typeName
      (site.name course.builder.options.naming ++ "Responses") →
    Names type (site.responseNames course.builder)

theorem exists_names {type : CatalogType} (h : type ∈ c.catalog.types) :
    ∃ names, course.Names type names ∧
      type.fields.map Field.label = names.map course.builder.label := by
  rcases course.run_type h with ⟨e, he, heq, q, q', hrun⟩ | ⟨site, shared, q, q', hsite, hrun⟩
  · exact ⟨_, .request he heq, labels_of_buildType hrun⟩
  · rcases hrun with hparameters | hresponses
    · obtain ⟨parameters, hmerged, hlabels⟩ :=
        Operation.Site.labels_of_parametersType hparameters
      exact ⟨_, .parameters hsite (name_parametersType hparameters) hmerged, hlabels⟩
    · exact ⟨_, .responses hsite (name_responsesType hresponses),
        Operation.Site.labels_of_responsesType hresponses⟩

end Course

/-- The fields of a type have the names that the document gives to them. Two of them have the same
identifier exactly if their names are alike, and so the identifiers of a type are distinct exactly
if no two of its names are. -/
theorem compile_fieldNames (h : setup.compile document = .ok c) :
    Nonempty (setup.Course document c) ∧ ∀ course : setup.Course document c,
      ∀ type ∈ c.catalog.types, ∃ names, course.Names type names ∧
        type.fields.map (·.name) = names ∧
        (∀ f ∈ type.fields, ∀ g ∈ type.fields,
          f.fieldName = g.fieldName ↔ Naming.Alike setup.options.naming f.name g.name) ∧
        ((type.fields.map (·.fieldName)).Nodup ↔
          names.Pairwise fun a b => ¬ Naming.Alike setup.options.naming a b) := by
  refine ⟨compile_course h, fun course type htype => ?_⟩
  obtain ⟨names, hnames, hlabels⟩ := course.exists_names htype
  have hoptions : course.builder.options = setup.options := scope_options course.scope_eq
  have hspelled : ∀ f ∈ type.fields,
      f.fieldName = Naming.fieldName f.name setup.options.naming := by
    intro f hf
    have hlabel : f.label ∈ names.map course.builder.label := hlabels ▸ List.mem_map_of_mem hf
    obtain ⟨name, _, hname⟩ := List.mem_map.1 hlabel
    obtain ⟨hfirst, hsecond⟩ := Prod.mk.inj hname
    rw [← hsecond, ← hfirst, hoptions]
  have hfields : type.fields.map (·.name) = names := by
    have hfirst := congrArg (List.map Prod.fst) hlabels
    rw [List.map_map, List.map_map] at hfirst
    exact hfirst.trans (List.map_id names)
  refine ⟨names, hnames, hfields, fun f hf g hg => ?_, ?_⟩
  · rw [hspelled f hf, hspelled g hg]
    exact Naming.fieldName_eq_iff
  · have hidentifiers : type.fields.map (·.fieldName) =
        names.map fun name => Naming.fieldName name setup.options.naming := by
      rw [← hfields, List.map_map]
      exact List.map_congr_left hspelled
    rw [hidentifiers, List.Nodup, List.pairwise_map]
    exact List.Pairwise.iff fun a b => not_congr Naming.fieldName_eq_iff

def twoPetIds : Json :=
  .object [("title", .string "Pet"), ("type", .string "object"), ("properties", .object [
    ("pet_id", .object [("type", .string "string")]),
    ("petId", .object [("type", .string "integer")])])]

theorem compile_twoPetIds : ∃ c, compile {} twoPetIds = .ok c ∧ c.diagnostics = [] ∧
    ∃ type, c.catalog.types = [type] ∧
      type.fields.map Field.label = [("pet_id", "petId"), ("petId", "petId")] := by
  have hresult : (compile {} twoPetIds).toOption.map (fun c => (c.diagnostics,
      c.catalog.types.map fun type => type.fields.map Field.label)) =
        some ([], [[("pet_id", "petId"), ("petId", "petId")]]) := by
    decide +kernel
  obtain ⟨c, hc, hout⟩ := Option.map_eq_some_iff.1 hresult
  obtain ⟨hdiagnostics, htypes⟩ := Prod.mk.inj hout
  obtain ⟨type, htype, hlabels⟩ := List.map_eq_singleton_iff.1 htypes
  exact ⟨c, eq_ok_of_toOption hc, hdiagnostics, type, htype, hlabels⟩

theorem compile_fieldNames_twoPetIds : ∃ c, compile {} twoPetIds = .ok c ∧
    ∃ course : Course {} twoPetIds c, ∃ type ∈ c.catalog.types,
      course.Names type ["pet_id", "petId"] ∧ ¬ (type.fields.map (·.fieldName)).Nodup := by
  obtain ⟨c, hc, _, type, htypes, hlabels⟩ := compile_twoPetIds
  have htype : type ∈ c.catalog.types := htypes ▸ List.mem_singleton_self type
  obtain ⟨⟨course⟩, hcourse⟩ := compile_fieldNames hc
  obtain ⟨names, hnames, hfields, _, hdistinct⟩ := hcourse course type htype
  have hkeys : names = ["pet_id", "petId"] := by
    have hfirst := congrArg (List.map Prod.fst) hlabels
    rw [List.map_map] at hfirst
    exact hfields.symm.trans hfirst
  rw [hkeys] at hnames hdistinct
  exact ⟨c, hc, course, type, htype, hnames, fun hnodup => absurd (hdistinct.1 hnodup) (by decide)⟩

/-- Two fields of a type can have the same identifier without a remark. -/
theorem exists_identifier_twice : ¬ ∀ {setup : Setup} {document : Json} {c : Compilation},
    setup.compile document = .ok c → ∀ type ∈ c.catalog.types,
      (type.fields.map (·.fieldName)).Nodup ∨ c.diagnostics ≠ [] := by
  intro hclaim
  obtain ⟨c, hc, hdiagnostics, type, htypes, hlabels⟩ := compile_twoPetIds
  rcases hclaim hc type (htypes ▸ List.mem_singleton_self type) with hnodup | hremarked
  · have hsecond := congrArg (List.map Prod.snd) hlabels
    rw [List.map_map] at hsecond
    have hidentifiers : type.fields.map (·.fieldName) = ["petId", "petId"] := hsecond
    rw [hidentifiers] at hnodup
    exact absurd hnodup (by decide)
  · exact hremarked hdiagnostics

end Setup

end SchemaCatalog
