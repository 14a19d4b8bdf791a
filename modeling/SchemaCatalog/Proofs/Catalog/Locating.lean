import SchemaCatalog.Proofs.Catalog.Slots
import SchemaCatalog.Proofs.Normal.Compositional
import SchemaCatalog.Proofs.Normal.Locating

namespace SchemaCatalog

theorem Starts.isPrefix_toList {path place : String} (h : Starts path place) :
    path.toList <+: place.toList := by
  obtain ⟨rest, rfl⟩ := h
  exact ⟨rest.toList, String.toList_append.symm⟩

/-- A value that is followed along references of its own has no place: nothing is said of it. -/
theorem Json.location_of_follow {document value : Json} {r : String} {location : Option String}
    (h : document.follow value = .error (.unresolvedPointer r location)) : location = none := by
  have hfrom {fuel : Nat} {chain : List String} {value : Json}
      (h : followFrom document fuel chain value = .error (.unresolvedPointer r location)) :
      location = none := by
    induction fuel generalizing chain value with
    | zero =>
      unfold followFrom at h
      split at h
      · cases h
      · dsimp only at h
        split at h <;> try cases h
        split at h <;> cases h
    | succ fuel ih =>
      unfold followFrom at h
      split at h
      · cases h
      · dsimp only at h
        split at h <;> try cases h
        split at h <;> try cases h
        obtain h | ⟨_, _, h⟩ := bind_eq_error h
        · unfold navigate at h
          split at h <;> cases h
          rfl
        · exact ih h
  exact hfrom h

namespace Builder

variable {b : Builder} {p : Progress} {reference path r : String} {e : CatalogError}

theorem ensures_request_ends (request' : Request) (p : Progress) {bad : CatalogError → Prop} :
    Ensures (request request') p (fun _ _ => True) bad :=
  (ensures_request request' p).mono (fun _ _ _ => trivial) fun _ he => he.elim

theorem ensures_elementType_ends (spec : FieldSpec) (s : Schema) (stub path : String)
    (p : Progress) {bad : CatalogError → Prop} :
    Ensures (b.elementType spec s stub path) p (fun _ _ => True) bad := by
  unfold elementType
  split
  · exact ensures_pure trivial
  · exact ensures_request_ends _ p

/-- Following a reference fails only where it or its target leads nowhere. -/
theorem referenceSpec_error (h : (b.referenceSpec reference path).run p = .error e) :
    (∃ e', b.scope.registry.expand reference = .error e' ∧ e = e'.locate path) ∨
      ∃ target e', b.scope.registry.expand reference = .ok target ∧
        target.normalize b.scope = .error e' ∧ e = e'.locate path := by
  have hensures : Ensures (b.referenceSpec reference path) p (fun _ _ => True) fun e =>
      (∃ e', b.scope.registry.expand reference = .error e' ∧ e = e'.locate path) ∨
        ∃ target e', b.scope.registry.expand reference = .ok target ∧
          target.normalize b.scope = .error e' ∧ e = e'.locate path := by
    unfold referenceSpec
    apply ensures_get_bind
    split
    · apply ensures_lift_bind
      · intro target htarget
        apply ensures_lift_bind
        · intro schema _
          apply ensures_modify_bind
          exact ensures_bind (ensures_request_ends _ _) fun _ _ _ => ensures_pure trivial
        · intro e he
          obtain ⟨e', he', rfl⟩ := Outcome.at_eq_error he
          exact .inr ⟨target, e', Outcome.at_eq_ok htarget, he', rfl⟩
      · intro e he
        obtain ⟨e', he', rfl⟩ := Outcome.at_eq_error he
        exact .inl ⟨e', he', rfl⟩
    · exact ensures_pure trivial
  exact hensures.of_error h

/-- Finding a field fails only where a reference in the schema is followed, at a path that starts
with that of the schema. -/
theorem fieldFor_error (stub path : String) (s : Schema) (p : Progress) :
    Ensures (b.fieldFor stub path s) p (fun _ _ => True) fun e =>
      ∃ reference ∈ s.references, ∃ place p', Starts path place ∧
        (b.referenceSpec reference place).run p' = .error e := by
  induction s using Schema.child_induction generalizing stub path p with
  | h s ih =>
    have hbelow {c : Schema} (hc : Schema.Child c s) (stub segment : String) (p : Progress) :
        Ensures (b.fieldFor stub (path ++ segment) c) p (fun _ _ => True) fun e =>
          ∃ reference ∈ s.references, ∃ place p', Starts path place ∧
            (b.referenceSpec reference place).run p' = .error e := by
      refine (ih c hc stub (path ++ segment) p).mono (fun _ _ h => h) ?_
      rintro e ⟨reference, hreference, place, p', hplace, he⟩
      exact ⟨reference, Schema.references_child hc hreference, place, p',
        (starts_append path segment).trans hplace, he⟩
    rw [fieldFor_eq]
    cases hholding : s.holding with
    | follows reference =>
      have hreference : reference ∈ s.references :=
        Schema.mem_references_cases.2 (.inl (Schema.reference_of_follows hholding))
      apply ensures_bind ((ensures_outcome _ p).mono (fun _ _ _ => trivial)
        fun e he => ⟨reference, hreference, path, p, .refl path, he⟩)
      exact fun _ _ _ => ensures_pure trivial
    | plainly spec => exact ensures_pure trivial
    | list element segment =>
      apply ensures_bind (hbelow (Schema.child_of_holding_list hholding) _ segment p)
      intro found p' _
      cases found with
      | none => exact ensures_pure trivial
      | some spec =>
        exact ensures_bind (ensures_elementType_ends spec _ _ _ p')
          fun _ _ _ => ensures_pure trivial
    | table value =>
      apply ensures_bind (hbelow (Schema.child_of_holding_table hholding) _ _ p)
      intro found p' _
      cases found with
      | none => exact ensures_pure trivial
      | some spec =>
        exact ensures_bind (ensures_elementType_ends spec _ _ _ p')
          fun _ _ _ => ensures_pure trivial
    | typed asChoice =>
      have htype : Ensures (b.requestSpec s stub path asChoice) p (fun _ _ => True) fun e =>
          ∃ reference ∈ s.references, ∃ place p', Starts path place ∧
            (b.referenceSpec reference place).run p' = .error e :=
        ensures_bind (ensures_request_ends _ p) fun _ _ _ => ensures_pure trivial
      exact ensures_bind htype fun _ _ _ => ensures_pure trivial
    | refused code message => exact ensures_modify_bind (ensures_pure trivial)

theorem isKept_of_stays (hstays : b.scope.Stays r) (h : b.scope.registry.resolve r = .error e) :
    b.options.isKept r = true := by
  by_contra hkept
  have hinlinable : b.scope.isInlinable r = .error e := by
    unfold Scope.isInlinable
    rw [if_neg (show ¬ b.scope.options.isKept r = true from hkept), h]
    rfl
  rcases hstays with hstays | ⟨hstays, _⟩
  · cases hinlinable.symm.trans hstays
  · cases hinlinable.symm.trans hstays

/-- What is said of the place when the normal form of the target of a reference is asked for. -/
inductive TargetAstray (b : Builder) (reference r place : String) : Prop
  | intro {target : Schema} (htarget : b.scope.registry.expand reference = .ok target)
    (h : target.normalize b.scope = .error (.unresolvedPointer r (some place)))
    (hplace : b.scope.registry.TreePlace place)

/-- How it can be that `r` is said to lead nowhere at `place` when the field for a schema at `path`
is found. -/
inductive Astray (b : Builder) (path : String) (s : Schema) (r place : String) : Prop
  /-- Normalization meets it and says in which tree. The path is not part of that. -/
  | tree (h : s.normalize b.scope = .error (.unresolvedPointer r (some place)))
    (hplace : b.scope.registry.TreePlace place)
  /-- It is kept by option, so that normalization does not look at it. -/
  | kept {normal : Schema} (hnormal : s.normalize b.scope = .ok normal)
    (hmem : r ∈ normal.references) (hkept : b.options.isKept r = true)
    (h : b.scope.registry.resolve r = .error (.unresolvedPointer r none))
    (hplace : Starts path place)
  /-- It is met in the target of a reference that stays. The path is not part of what is said. -/
  | target {normal : Schema} {reference : String} (hnormal : s.normalize b.scope = .ok normal)
    (hmem : reference ∈ normal.references) (h : b.TargetAstray reference r place)

/-- A reference that leads nowhere is said to stand at the path of the field. What leads nowhere in
its target is said to stand in a tree. -/
theorem located_referenceSpec {location : Option String}
    (h : (b.referenceSpec reference path).run p = .error (.unresolvedPointer r location)) :
    ∃ place, location = some place ∧
      (r = reference ∧ place = path ∧
        b.scope.registry.resolve r = .error (.unresolvedPointer r none) ∨
      b.TargetAstray reference r place) := by
  obtain ⟨e, he, heq⟩ | ⟨target, e, htarget, he, heq⟩ := referenceSpec_error h
  · obtain ⟨document, rfl⟩ | rfl := Registry.resolve_error (Registry.expand_eq_error he)
    · cases heq
    · cases heq
      exact ⟨path, rfl, .inl ⟨rfl, rfl, Registry.expand_eq_error he⟩⟩
  · have hlocated := Schema.normalize_located he
    rw [hlocated.locate path] at heq
    subst heq
    obtain ⟨place, rfl, hplace⟩ := hlocated r location rfl
    exact ⟨place, rfl, .inr ⟨htarget, he, hplace⟩⟩

end Builder

namespace Operation.Site

open Builder

variable (site : Site) (b : Builder) (method : String)

theorem located_field (name path : String) (s : Schema) (description : Option String)
    (p : Progress) : Ensures (field b method name path s description) p (fun _ _ => True)
      fun e => ∀ r location, e = .unresolvedPointer r location →
        ∃ place, location = some place ∧ b.Astray path s r place := by
  unfold field
  apply ensures_lift_bind
  · intro normal hnormal
    have hnormal : s.normalize b.scope = .ok normal := Outcome.at_eq_ok hnormal
    have hstays := Schema.normalize_stays hnormal
    refine ensures_bind ((fieldFor_error _ path normal p).mono (fun _ _ h => h) ?_)
      fun _ _ _ => ensures_pure trivial
    rintro e ⟨reference, hmem, place, p', hplace, he⟩ r location rfl
    obtain ⟨place', rfl, ⟨rfl, rfl, hnone⟩ | htarget⟩ := located_referenceSpec he
    · exact ⟨place', rfl, .kept hnormal hmem (isKept_of_stays (hstays r hmem) hnone) hnone hplace⟩
    · exact ⟨place', rfl, .target hnormal hmem htarget⟩
  · intro e he r location heq
    obtain ⟨e', he', rfl⟩ := Outcome.at_eq_error he
    have hlocated := Schema.normalize_located he'
    rw [hlocated.locate path] at heq
    subst heq
    obtain ⟨place, rfl, hplace⟩ := hlocated r location rfl
    exact ⟨place, rfl, .tree he' hplace⟩

/-- What is said of a pointer that leads nowhere: nothing of its place where one of the parts itself
is followed, and a place as above where it stands in a schema. -/
def Blames (parts : List Json) (declares : String → Schema → Prop) (e : CatalogError) : Prop :=
  ∀ r location, e = .unresolvedPointer r location →
    (location = none ∧ ∃ part ∈ parts,
      site.document.follow part = .error (.unresolvedPointer r none)) ∨
    ∃ path s place, declares path s ∧ location = some place ∧ b.Astray path s r place

variable {site b method shared}

theorem Takes.starts {path : String} {s : Schema} (h : site.Takes method shared path s) :
    Starts method path := by
  cases h with
  | parameter =>
    exact ((starts_append method "/parameters/").trans (starts_append _ _))
  | body => exact starts_append method "/requestBody"

theorem finds_blames (parts : List Json) (declares : String → Schema → Prop) :
    site.Finds method b parts declares (fun _ => True) (site.Blames b parts declares) where
  follow := by
    rintro part e hpart he r location rfl
    cases Json.location_of_follow he
    exact .inl ⟨rfl, part, hpart, he⟩
  read fault := nofun
  field := by
    intro path s hdeclares name description p
    refine (located_field b method name path s description p).mono (fun _ _ _ _ _ _ => trivial) ?_
    intro e he r location heq
    obtain ⟨place, hlocation, hplace⟩ := he r location heq
    exact .inr ⟨path, s, place, hdeclares, hlocation, hplace⟩

/-- Where building the types of an operation ends because a pointer in a schema leads nowhere, the
error says at which place: in the tree that was brought to normal form, or, for a reference that is
kept by option, at a path that starts with the one attached to the schema. The same holds of
following a single reference. -/
theorem unresolved_located (site : Site) (b : Builder) (method : String) (shared : List Json)
    {p : Progress} {r : String} {location : Option String} :
    ((site.parametersType b method shared).run p = .error (.unresolvedPointer r location) →
      (location = none ∧ ∃ part ∈ site.inputs shared,
        site.document.follow part = .error (.unresolvedPointer r none)) ∨
      ∃ path s place, site.Takes method shared path s ∧ location = some place ∧
        b.Astray path s r place) ∧
    ((site.responsesType b method).run p = .error (.unresolvedPointer r location) →
      (location = none ∧ ∃ part ∈ site.responses.map Prod.snd,
        site.document.follow part = .error (.unresolvedPointer r none)) ∨
      ∃ path s place, site.Gives method path s ∧ location = some place ∧
        b.Astray path s r place) ∧
    ∀ reference path,
      (b.referenceSpec reference path).run p = .error (.unresolvedPointer r location) →
      ∃ place, location = some place ∧
        (r = reference ∧ place = path ∧
          b.scope.registry.resolve r = .error (.unresolvedPointer r none) ∨
        b.TargetAstray reference r place) :=
  ⟨fun h => ((finds_blames _ _).parametersType p).of_error h r location rfl,
    fun h => ((finds_blames _ _).responsesType p).of_error h r location rfl,
    fun _ _ h => located_referenceSpec h⟩

def missingSchema : Json := .object [("$ref", .string "#/definitions/Missing")]

def addPetOperation : Json :=
  .object [("operationId", .string "addPet"),
    ("parameters", .array [.object [("name", .string "pet"), ("in", .string "body"),
      ("schema", missingSchema)]]),
    ("responses", .object [("200", .object [("schema", missingSchema)])])]

def addPetSite : Site :=
  ⟨.object [("swagger", .string "2.0"), ("paths", .object [("/pets", .object [("post",
    addPetOperation)])])], .swagger2, "/pets", "post", addPetOperation⟩

def petBuilder (options : Options) : Builder :=
  .new ⟨({} : Registry).registerRoot {
    definitions := some [("Pet", { Schema.ofType "object" with
      properties := some [("owner", .ofReference "#/definitions/Owner")] })] }, options⟩

theorem run_parametersType_addPet :
    (addPetSite.parametersType (petBuilder {}) (addPetSite.name .json) []).run {} =
      .error (.unresolvedPointer "#/definitions/Missing" (some "#")) :=
  rfl

theorem run_referenceSpec_pet :
    ((petBuilder {}).referenceSpec "#/definitions/Pet" "Schema/properties/pet").run {} =
      .error (.unresolvedPointer "#/definitions/Owner" (some "#/properties/owner")) :=
  rfl

/-- The path is that of the parameter where the reference is kept. -/
theorem unresolved_located_addPet :
    (∃ path s, addPetSite.Takes "AddPet" [] path s ∧
      (petBuilder { kept := ["#/definitions/Missing"] }).Astray path s "#/definitions/Missing"
        "AddPet/parameters/pet") ∧
    (∃ path s, addPetSite.Gives "AddPet" path s ∧
      (petBuilder {}).Astray path s "#/definitions/Missing" "#") ∧
    (petBuilder {}).TargetAstray "#/definitions/Pet" "#/definitions/Owner"
      "#/properties/owner" := by
  have hkept : (addPetSite.parametersType (petBuilder { kept := ["#/definitions/Missing"] })
      "AddPet" []).run {} =
      .error (.unresolvedPointer "#/definitions/Missing" (some "AddPet/parameters/pet")) :=
    rfl
  have hgives : (addPetSite.responsesType (petBuilder {}) "AddPet").run {} =
      .error (.unresolvedPointer "#/definitions/Missing" (some "#")) :=
    rfl
  refine ⟨?_, ?_, ?_⟩
  · obtain ⟨hnone, _⟩ | ⟨path, s, place, htakes, hplace, hastray⟩ :=
      (unresolved_located _ _ _ _).1 hkept
    · cases hnone
    · cases hplace
      exact ⟨path, s, htakes, hastray⟩
  · obtain ⟨hnone, _⟩ | ⟨path, s, place, hgives, hplace, hastray⟩ :=
      (unresolved_located _ _ _ []).2.1 hgives
    · cases hnone
    · cases hplace
      exact ⟨path, s, hgives, hastray⟩
  · obtain ⟨place, hplace, ⟨heq, _⟩ | htarget⟩ :=
      (unresolved_located addPetSite _ "AddPet" []).2.2 _ _ run_referenceSpec_pet
    · exact absurd heq (by decide)
    · cases hplace
      exact htarget

/-- The place that an error names can be neither the path of the parameter nor that of the type that
refers. -/
theorem exists_unresolved_misplaced :
    (¬ ∀ (site : Site) (b : Builder) (shared : List Json) (p : Progress) (r : String)
      (location : Option String),
      (∀ part ∈ site.inputs shared, ∃ target, site.document.follow part = .ok target) →
      (site.parametersType b (site.name b.options.naming) shared).run p =
        .error (.unresolvedPointer r location) →
      ∃ path s place, site.Takes (site.name b.options.naming) shared path s ∧
        location = some place ∧ Starts path place) ∧
    ¬ ∀ (b : Builder) (p : Progress) (reference path r : String) (target : Schema)
      (location : Option String), b.scope.registry.expand reference = .ok target →
      (b.referenceSpec reference path).run p = .error (.unresolvedPointer r location) →
      ∃ place, location = some place ∧ Starts path place := by
  constructor
  · intro h
    have hfollow : ∀ part ∈ addPetSite.inputs [], ∃ target,
        addPetSite.document.follow part = .ok target :=
      List.forall_mem_singleton.2 ⟨_, rfl⟩
    obtain ⟨path, s, place, htakes, hplace, hstarts⟩ :=
      h addPetSite (petBuilder {}) [] {} _ _ hfollow run_parametersType_addPet
    cases hplace
    have hmethod : "AddPet".toList <+: "#".toList :=
      (htakes.starts.trans hstarts).isPrefix_toList
    exact absurd hmethod (by decide)
  · intro h
    obtain ⟨place, hplace, hstarts⟩ := h (petBuilder {}) {} _ _ _ _ _ rfl run_referenceSpec_pet
    cases hplace
    exact absurd hstarts.isPrefix_toList (by decide)

end Site

end Operation

end SchemaCatalog
