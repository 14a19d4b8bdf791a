import SchemaCatalog.Proofs.Catalog.Omissions

namespace SchemaCatalog

namespace Operation.Site

open Builder

variable (site : Site) (b : Builder) (method : String)

def position (parameter : Json) : Option Position :=
  (parameter.stringMember? "in").bind Position.ofName?

def placedPart (path name : String) (position : Option Position) : Part where
  path := path
  Fits f := f.name = name ∧ f.position = position

def parameterPart (name : String) (parameter : Json) : Part :=
  placedPart s!"{method}/parameters/{name}" name (position parameter)

def bodyPart : Part := placedPart s!"{method}/requestBody" "body" (some .body)

/-- A parameter that has a name, unless it has no schema. -/
def parameterPart? (parameter : Json) : Option Part :=
  match parameter.stringMember? "name" with
  | none => none
  | some name =>
    match parameterSchema site.dialect parameter with
    | .ok none => none
    | _ => some (parameterPart method name parameter)

def bodySchema : Outcome (Option Schema) :=
  match site.operation.member? "requestBody" with
  | none => return none
  | some body => do mediaSchema (← site.document.follow body)

def bodyPart? : Option Part :=
  match site.bodySchema with
  | .ok none => none
  | _ => some (bodyPart method)

/-- What the parameters type of an operation has to show: its parameters and its body. -/
def parts (parameters : List Json) : List Part :=
  (parameters.flatMap fun parameter => (site.parameterPart? method parameter).toList) ++
    (site.bodyPart? method).toList

theorem parameterPart_mem_parts {parameters : List Json} {parameter : Json} {name : String}
    (hparameter : parameter ∈ parameters) (hname : parameter.stringMember? "name" = some name)
    (hschema : parameterSchema site.dialect parameter ≠ .ok none) :
    parameterPart method name parameter ∈ site.parts method parameters := by
  refine List.mem_append_left _ (List.mem_flatMap.2 ⟨parameter, hparameter, ?_⟩)
  rw [Option.mem_toList, parameterPart?, hname]
  dsimp only
  split
  · exact absurd ‹_› hschema
  · rfl

theorem bodyPart_mem_parts (parameters : List Json) (hschema : site.bodySchema ≠ .ok none) :
    bodyPart method ∈ site.parts method parameters := by
  refine List.mem_append_right _ ?_
  rw [Option.mem_toList, bodyPart?]
  split
  · exact absurd ‹_› hschema
  · rfl

def slotFields (slot : Option Slot) : List Field := slot.toList.map Prod.fst

theorem accounts_field (name path : String) (schema : Schema) (description : Option String) :
    Accounts [.named path name] Option.toList
      (field b method name path schema description) :=
  accounts_lift fun _ _ => accounts_fieldFor b _ path name _ _

theorem accounts_slot {path name : String} {x : BuildM (Option Field)}
    (hx : Accounts [.named path name] Option.toList x) (position : Option Position)
    (source : Json) : Accounts [placedPart path name position] slotFields
      (do return (← x).map fun field => slot field position source) := by
  intro p
  apply ensures_bind (hx p)
  intro found p' hp'
  obtain ⟨hqueues, haccounted⟩ := hp'
  refine ensures_pure ⟨hqueues, ?_⟩
  cases found with
  | none =>
    cases haccounted with
    | remark hd hunder _ => exact .remark hd hunder .nil
  | some found =>
    cases haccounted with
    | field hfits _ => exact .field ⟨hfits, rfl⟩ .nil
    | remark _ _ hrest => cases hrest

theorem accounts_parameterSlot (parameter : Json) :
    Accounts (site.parameterPart? method parameter).toList slotFields
      (site.parameterSlot b method parameter) := by
  unfold parameterSlot parameterPart?
  cases hname : parameter.stringMember? "name" with
  | none => exact accounts_nothing rfl
  | some name =>
    apply accounts_lift
    intro schema hschema
    rw [hschema]
    cases schema with
    | none => exact accounts_nothing rfl
    | some schema => exact accounts_slot (accounts_field b method name _ schema _) _ _

theorem accounts_parameterSlots (parameters : List Json) :
    Accounts (parameters.flatMap fun parameter => (site.parameterPart? method parameter).toList)
      (fun slots => slots.map Prod.fst) (site.parameterSlots b method parameters) := by
  induction parameters with
  | nil => exact accounts_nothing rfl
  | cons parameter rest ih =>
    exact accounts_seq (accounts_parameterSlot site b method parameter) ih _
      fun _ _ => List.map_append

theorem accounts_bodySlot :
    Accounts (site.bodyPart? method).toList slotFields (site.bodySlot b method) := by
  unfold bodySlot bodyPart? bodySchema
  cases hbody : site.operation.member? "requestBody" with
  | none => exact accounts_nothing rfl
  | some body =>
    apply accounts_lift
    intro body' hfollow
    apply accounts_lift
    intro schema hschema
    have hboth : (do mediaSchema (← site.document.follow body)) = .ok schema := by
      rw [hfollow]
      exact hschema
    simp only [hboth]
    cases schema with
    | none => exact accounts_nothing rfl
    | some schema => exact accounts_slot (accounts_field b method "body" _ schema _) _ _

theorem accounts_parametersType {shared parameters : List Json}
    (h : mergedParameters site.document site.operation shared = .ok parameters) :
    Accounts (site.parts method parameters) (·.fields)
      (site.parametersType b method shared) := by
  unfold parametersType
  apply accounts_lift
  intro parameters' hmerged
  cases h.symm.trans hmerged
  exact accounts_seq (accounts_parameterSlots site b method parameters)
    (accounts_bodySlot site b method) _ fun _ _ => List.map_append

end Operation.Site

namespace Builder

variable {b : Builder} {p p' : Progress}

/-- The parameters type of every operation is built in a run of its own, the remarks of which stay,
and it is offered to the catalog if it has fields. -/
theorem Adds.run_site {sites : List (Operation.Site × List Json)} {offered : List CatalogType}
    (h : Adds b p sites offered p') {e : Operation.Site × List Json} (he : e ∈ sites) :
    ∃ type p₀ p₁, (e.1.parametersType b (e.1.name b.options.naming) e.2).run p₀ = .ok (type, p₁) ∧
      p₁.diagnostics <+: p'.diagnostics ∧ (type.fields = [] ∨ type ∈ offered) := by
  induction h with
  | done => cases he
  | @next p p₁ p₂ p₃ p' site shared rest parameters responses method offered hparameters
      hresponses hmethod hadds ih =>
    rcases List.mem_cons.1 he with heq | he
    · subst heq
      refine ⟨parameters, p, p₁, hparameters, ?_, ?_⟩
      · have hqueues := (Operation.Site.onlyQueues_responsesType site b _ p₁).of_ok hresponses
        obtain ⟨hp₃, _⟩ := run_method_of hparameters hresponses hmethod
        subst hp₃
        exact hqueues.diagnostics.trans hadds.added.diagnostics
      · refine or_iff_not_imp_left.2 fun hfields => List.mem_append_left _ ?_
        exact List.mem_filter.2 ⟨List.mem_cons_self, by simpa using hfields⟩
    · obtain ⟨type, p₀, p₁, hrun, hremarks, hoffered⟩ := ih he
      exact ⟨type, p₀, p₁, hrun, hremarks, hoffered.imp_right (List.mem_append_right _)⟩

end Builder

namespace Setup

open Builder Operation.Site

/-- The parameters type of every operation shows what the operation declares: each merged parameter
that has a name, and the body, is a field in its place or remarked on, unless it has no schema. The
type is in the catalog if it has fields and its name is not taken. -/
theorem compile_parameters {setup : Setup} {document : Json} {c : Compilation}
    (h : setup.compile document = .ok c) :
    Nonempty (setup.Course document c) ∧ ∀ course : setup.Course document c,
      ∀ site shared, (site, shared) ∈ course.sites →
      ∀ method, method = site.name course.builder.options.naming →
      ∃ parameters type p p',
        Operation.mergedParameters site.document site.operation shared = .ok parameters ∧
        (site.parametersType course.builder method shared).run p = .ok (type, p') ∧
        (type.fields = [] ∨ type ∈ c.catalog.types ∨ type ∈ course.rejected) ∧
        Accounted c.diagnostics (site.parts method parameters) type.fields ∧
        (∀ parameter ∈ parameters, ∀ name, parameter.stringMember? "name" = some name →
          Operation.parameterSchema site.dialect parameter ≠ .ok none →
          (∃ f ∈ type.fields, f.name = name ∧ f.position = position parameter) ∨
            ∃ d ∈ c.diagnostics, d.Under s!"{method}/parameters/{name}") ∧
        (site.bodySchema ≠ .ok none →
          (∃ f ∈ type.fields, f.name = "body" ∧ f.position = some .body) ∨
            ∃ d ∈ c.diagnostics, d.Under s!"{method}/requestBody") := by
  refine ⟨compile_course h, fun course site shared hsite method hmethod => ?_⟩
  subst hmethod
  obtain ⟨type, p, p', hrun, hremarks, hoffered⟩ := course.adds.run_site hsite
  cases hmerged : Operation.mergedParameters site.document site.operation shared with
  | error e =>
    rw [parametersType, hmerged] at hrun
    cases hrun
  | ok parameters =>
    have hbuilt := ((accounts_parametersType site course.builder _ hmerged p).of_ok hrun).2
    -- what is remarked on while the operation is built stays in the compilation
    have hlast : course.operated.diagnostics <+: c.diagnostics := by
      rw [course.diagnostics_eq]
      exact course.drainsRest.settled.diagnostics
    have hshown : Accounted c.diagnostics (site.parts _ parameters) type.fields :=
      hbuilt.mono (List.Subset.trans Progress.remarks_subset_diagnostics
        (hremarks.trans hlast).subset)
    refine ⟨parameters, type, p, p', rfl, hrun, ?_, hshown, fun parameter hparameter name hname
      hschema => ?_, fun hschema => ?_⟩
    · refine hoffered.imp_right fun hadded => course.mem_types_or_rejected ?_
      exact List.mem_append_left _ (List.mem_append_right _ hadded)
    · exact hshown.found_or_remarked
        (parameterPart_mem_parts site _ hparameter hname hschema)
    · exact hshown.found_or_remarked (bodyPart_mem_parts site _ parameters hschema)

def limitParameter : Json :=
  .object [("name", .string "limit"), ("in", .string "query"),
    ("schema", .object [("type", .string "integer")])]

def filterParameter : Json :=
  .object [("name", .string "filter"), ("in", .string "query"),
    ("content", .object [("application/json", .object [])])]

def searchOperation : Json :=
  .object [("parameters", .array [limitParameter, filterParameter]),
    ("requestBody", .object [("content", .object [("application/json", .object [])])])]

def searchDocument : Json :=
  .object [("openapi", .string "3.0.0"),
    ("paths", .object [("/search", .object [("post", searchOperation)])])]

def searchSite : Operation.Site :=
  ⟨searchDocument, .openApi3, "/search", "post", searchOperation⟩

theorem site_search {c : Compilation} (course : Course {} searchDocument c) :
    (searchSite, []) ∈ course.sites := by
  have hsites : operationSites searchDocument (Dialect.detect searchDocument) =
      .ok [(searchSite, [])] :=
    rfl
  rw [Except.ok.inj (course.sites_eq.symm.trans hsites)]
  exact List.mem_singleton_self _

theorem mergedParameters_search :
    Operation.mergedParameters searchDocument searchOperation [] =
      .ok [limitParameter, filterParameter] :=
  rfl

theorem compile_searchDocument : ∃ c, compile {} searchDocument = .ok c ∧ c.diagnostics = [] := by
  have hresult : (compile {} searchDocument).toOption.map (·.diagnostics) = some [] := by
    decide +kernel
  obtain ⟨c, hc, hnone⟩ := Option.map_eq_some_iff.1 hresult
  exact ⟨c, eq_ok_of_toOption hc, hnone⟩

theorem compile_parameters_search : ∃ c, compile {} searchDocument = .ok c ∧
    ∃ course : Course {} searchDocument c, (searchSite, []) ∈ course.sites ∧
      ∃ type p p', (searchSite.parametersType course.builder "PostSearch" []).run p =
        .ok (type, p') ∧ ∃ f ∈ type.fields, f.name = "limit" ∧ f.position = some .query := by
  obtain ⟨c, hc, hnone⟩ := compile_searchDocument
  obtain ⟨⟨course⟩, hcourse⟩ := compile_parameters hc
  have hmethod : "PostSearch" = searchSite.name course.builder.options.naming := by
    have hname (naming : NamingConvention) : "PostSearch" = searchSite.name naming := by
      cases naming <;> decide +kernel
    exact hname _
  obtain ⟨parameters, type, p, p', hmerged, hrun, _, _, hparameters, _⟩ :=
    hcourse course searchSite [] (site_search course) _ hmethod
  cases hmerged.symm.trans mergedParameters_search
  have hschema : Operation.parameterSchema searchSite.dialect limitParameter ≠ .ok none := nofun
  rcases hparameters limitParameter List.mem_cons_self "limit" rfl hschema with hfield | ⟨d, hd, _⟩
  · exact ⟨c, hc, course, site_search course, type, p, p', hrun, hfield⟩
  · rw [hnone] at hd
    cases hd

/-- The only part of the operation that has to be shown is the parameter with a schema. -/
theorem name_of_search {b : Builder} {method : String} {type : CatalogType} {p p' : Progress}
    (h : (searchSite.parametersType b method []).run p = .ok (type, p')) {f : Field}
    (hf : f ∈ type.fields) : f.name = "limit" := by
  have hparts : searchSite.parts method [limitParameter, filterParameter] =
      [parameterPart method "limit" limitParameter] :=
    rfl
  have hshown : Accounted (p.remarks p') (searchSite.parts method [limitParameter, filterParameter])
      type.fields :=
    ((accounts_parametersType searchSite b method mergedParameters_search p).of_ok h).2
  rw [hparts] at hshown
  generalize type.fields = fields at hshown hf
  cases hshown with
  | field hfits hrest =>
    cases hrest
    rw [List.mem_singleton.1 hf]
    exact hfits.1
  | remark _ _ hrest =>
    cases hrest
    cases hf

/-- Parameters and bodies can be left out silently. -/
theorem exists_parameter_unshown :
    (¬ ∀ {setup : Setup} {document : Json} {c : Compilation} (course : setup.Course document c),
      ∀ site shared, (site, shared) ∈ course.sites →
      ∀ method, method = site.name course.builder.options.naming →
      ∀ parameters type p p',
        Operation.mergedParameters site.document site.operation shared = .ok parameters →
        (site.parametersType course.builder method shared).run p = .ok (type, p') →
        ∀ parameter ∈ parameters, ∀ name, parameter.stringMember? "name" = some name →
          (∃ f ∈ type.fields, f.name = name) ∨
            ∃ d ∈ c.diagnostics, d.Under s!"{method}/parameters/{name}") ∧
    ¬ ∀ {setup : Setup} {document : Json} {c : Compilation} (course : setup.Course document c),
      ∀ site shared, (site, shared) ∈ course.sites →
      ∀ method, method = site.name course.builder.options.naming →
      ∀ type p p', (site.parametersType course.builder method shared).run p = .ok (type, p') →
        ∀ body, site.operation.member? "requestBody" = some body →
          (∃ f ∈ type.fields, f.name = "body") ∨
            ∃ d ∈ c.diagnostics, d.Under s!"{method}/requestBody" := by
  obtain ⟨c, hc, hnone⟩ := compile_searchDocument
  obtain ⟨course⟩ := compile_course hc
  have hsite := site_search course
  obtain ⟨type, p, p', hrun, _⟩ := course.adds.run_site hsite
  constructor
  · intro hclaim
    rcases hclaim course searchSite [] hsite _ rfl _ type p p' mergedParameters_search hrun
        filterParameter (List.mem_cons_of_mem _ List.mem_cons_self) "filter" rfl with
      ⟨f, hf, hname⟩ | ⟨d, hd, _⟩
    · exact absurd ((name_of_search hrun hf).symm.trans hname) (by decide)
    · rw [hnone] at hd
      cases hd
  · intro hclaim
    rcases hclaim course searchSite [] hsite _ rfl type p p' hrun _ rfl with
      ⟨f, hf, hname⟩ | ⟨d, hd, _⟩
    · exact absurd ((name_of_search hrun hf).symm.trans hname) (by decide)
    · rw [hnone] at hd
      cases hd

end Setup

end SchemaCatalog
