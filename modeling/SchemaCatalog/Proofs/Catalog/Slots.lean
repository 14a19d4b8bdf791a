import SchemaCatalog.Proofs.Catalog.Parameters

namespace SchemaCatalog.Operation

section

variable {value : Json} {e : CatalogError}

theorem readSchema_error (h : readSchema value = .error e) : ∃ fault, e = .invalidSchema fault := by
  unfold readSchema at h
  cases hdecode : Schema.decode value with
  | ok s =>
    rw [hdecode] at h
    cases h
  | error fault =>
    rw [hdecode] at h
    cases h
    exact ⟨fault, rfl⟩

theorem schemaMember_error {name : String} (h : schemaMember value name = .error e) :
    ∃ fault, e = .invalidSchema fault := by
  unfold schemaMember at h
  split at h
  · cases h
  · obtain h | ⟨_, _, h⟩ := bind_eq_error h
    · exact readSchema_error h
    · cases h

theorem mediaSchema_error (h : mediaSchema value = .error e) :
    ∃ fault, e = .invalidSchema fault := by
  unfold mediaSchema at h
  split at h
  · exact schemaMember_error h
  · cases h

theorem parameterSchema_error {dialect : Dialect} (h : parameterSchema dialect value = .error e) :
    ∃ fault, e = .invalidSchema fault := by
  unfold parameterSchema at h
  dsimp only at h
  split at h
  · unfold ownSchema at h
    obtain h | ⟨own, _, h⟩ := bind_eq_error h
    · exact schemaMember_error h
    · cases own with
      | none => exact mediaSchema_error h
      | some s => cases h
  · obtain h | ⟨_, _, h⟩ := bind_eq_error h
    · exact readSchema_error h
    · cases h

theorem responseSchema_error {dialect : Dialect} (h : responseSchema dialect value = .error e) :
    ∃ fault, e = .invalidSchema fault := by
  unfold responseSchema at h
  split at h
  · exact mediaSchema_error h
  · exact schemaMember_error h

theorem mergeInto_error {document : Json} {merged parameters : List Json}
    (h : mergeInto document merged parameters = .error e) :
    ∃ parameter ∈ parameters, document.follow parameter = .error e := by
  induction parameters generalizing merged with
  | nil => cases h
  | cons parameter rest ih =>
    rw [mergeInto] at h
    obtain h | ⟨_, _, h⟩ := bind_eq_error h
    · exact ⟨parameter, List.mem_cons_self, h⟩
    · obtain ⟨other, hother, h⟩ := ih h
      exact ⟨other, List.mem_cons_of_mem _ hother, h⟩

end

namespace Site

variable (site : Site) (method : String) (shared : List Json)

def responses : List (String × Json) :=
  ((site.operation.member? "responses").bind Json.members?).getD []

/-- The parameters and the body of an operation, not yet followed to where they are defined. -/
def inputs : List Json :=
  shared ++ listMember site.operation "parameters" ++ (site.operation.member? "requestBody").toList

/-- The schemas of the parameters and the body, each with the path that is attached to it. -/
inductive Takes : String → Schema → Prop
  | parameter {parameters : List Json} {parameter : Json} {name : String} {s : Schema} :
    mergedParameters site.document site.operation shared = .ok parameters →
    parameter ∈ parameters → parameter.stringMember? "name" = some name →
    parameterSchema site.dialect parameter = .ok (some s) →
    Takes s!"{method}/parameters/{name}" s
  | body {s : Schema} : site.bodySchema = .ok (some s) → Takes s!"{method}/requestBody" s

/-- The schemas of the responses, each with the path that is attached to it. -/
inductive Gives : String → Schema → Prop
  | response {code : String} {response target : Json} {s : Schema} :
    (code, response) ∈ site.responses → site.document.follow response = .ok target →
    responseSchema site.dialect target = .ok (some s) → Gives s!"{method}/responses/{code}" s

/-- The fields for the schemas satisfy `P` wherever they are found, and everything that can fail on
the way does so as `bad` says. -/
structure Finds (b : Builder) (parts : List Json) (declares : String → Schema → Prop)
    (P : Field → Prop) (bad : CatalogError → Prop) : Prop where
  follow {part : Json} {e : CatalogError} : part ∈ parts → site.document.follow part = .error e →
    bad e
  read (fault : SchemaFault) : bad (.invalidSchema fault)
  field {path : String} {s : Schema} : declares path s →
    ∀ (name : String) (description : Option String) (p : Progress),
      Ensures (field b method name path s description) p
        (fun found _ => ∀ f ∈ found, ∀ position, P { f with position := position }) bad

namespace Finds

variable {site method shared} {b : Builder} {P : Field → Prop} {bad : CatalogError → Prop}

section

variable {parts : List Json} {declares : String → Schema → Prop}
  (h : site.Finds method b parts declares P bad)

include h

theorem invalid {e : CatalogError} (he : ∃ fault, e = .invalidSchema fault) : bad e := by
  obtain ⟨fault, rfl⟩ := he
  exact h.read fault

theorem slot {path : String} {s : Schema} (hs : declares path s) (name : String)
    (description : Option String) (position : Option Position) (source : Json) (p : Progress) :
    Ensures (do
      let found ← Site.field b method name path s description
      return found.map fun field => Site.slot field position source) p
      (fun found _ => ∀ slot ∈ found, P slot.1) bad := by
  apply ensures_bind (h.field hs name description p)
  intro found p' hfound
  refine ensures_pure fun slot hslot => ?_
  obtain ⟨f, hf, rfl⟩ := Option.map_eq_some_iff.1 hslot
  exact hfound f hf position

end

section

variable (h : site.Finds method b (site.inputs shared) (site.Takes method shared) P bad)

include h

theorem parameterSlot {parameters : List Json} {parameter : Json}
    (hmerged : mergedParameters site.document site.operation shared = .ok parameters)
    (hparameter : parameter ∈ parameters) (p : Progress) :
    Ensures (site.parameterSlot b method parameter) p (fun found _ => ∀ slot ∈ found, P slot.1)
      bad := by
  unfold Site.parameterSlot
  cases hname : parameter.stringMember? "name" with
  | none => exact ensures_pure fun slot hslot => by cases hslot
  | some name =>
    apply ensures_lift_bind
    · intro found hfound
      cases found with
      | none => exact ensures_pure fun slot hslot => by cases hslot
      | some s => exact h.slot (.parameter hmerged hparameter hname hfound) _ _ _ _ p
    · exact fun e he => h.invalid (parameterSchema_error he)

theorem parameterSlots {parameters taken : List Json}
    (hmerged : mergedParameters site.document site.operation shared = .ok parameters)
    (htaken : taken ⊆ parameters) (p : Progress) :
    Ensures (site.parameterSlots b method taken) p (fun slots _ => ∀ slot ∈ slots, P slot.1)
      bad := by
  induction taken generalizing p with
  | nil => exact ensures_pure fun slot hslot => absurd hslot List.not_mem_nil
  | cons parameter rest ih =>
    obtain ⟨hparameter, hrest⟩ := List.cons_subset.1 htaken
    apply ensures_bind (h.parameterSlot hmerged hparameter p)
    intro found p' hfound
    apply ensures_bind (ih hrest p')
    intro slots p'' hslots
    refine ensures_pure fun slot hslot => ?_
    rcases List.mem_append.1 hslot with hslot | hslot
    · exact hfound slot (Option.mem_toList.1 hslot)
    · exact hslots slot hslot

theorem bodySlot (p : Progress) :
    Ensures (site.bodySlot b method) p (fun found _ => ∀ slot ∈ found, P slot.1) bad := by
  unfold Site.bodySlot
  cases hbody : site.operation.member? "requestBody" with
  | none => exact ensures_pure fun slot hslot => by cases hslot
  | some body =>
    apply ensures_lift_bind
    · intro target htarget
      apply ensures_lift_bind
      · intro found hfound
        cases found with
        | none => exact ensures_pure fun slot hslot => by cases hslot
        | some s =>
          have hschema : site.bodySchema = .ok (some s) := by
            unfold bodySchema
            rw [hbody]
            dsimp only
            rw [htarget]
            exact hfound
          exact h.slot (.body hschema) _ _ _ _ p
      · exact fun e he => h.invalid (mediaSchema_error he)
    · intro e he
      refine h.follow (List.mem_append_right _ ?_) he
      rw [hbody]
      exact List.mem_singleton_self body

/-- What holds of the fields that are found holds of the fields of the parameters type. -/
theorem parametersType (p : Progress) :
    Ensures (site.parametersType b method shared) p
      (fun type _ => type.kind = .struct ∧ ∀ f ∈ type.fields, P f) bad := by
  unfold Site.parametersType
  apply ensures_lift_bind
  · intro parameters hmerged
    apply ensures_bind (h.parameterSlots hmerged (List.Subset.refl parameters) p)
    intro slots p' hslots
    apply ensures_bind (h.bodySlot p')
    intro body p'' hbody
    refine ensures_pure ⟨rfl, fun f hf => ?_⟩
    obtain ⟨slot, hslot, rfl⟩ := List.mem_map.1 hf
    rcases List.mem_append.1 hslot with hslot | hslot
    · exact hslots slot hslot
    · exact hbody slot (Option.mem_toList.1 hslot)
  · intro e he
    obtain ⟨parameter, hparameter, he⟩ := mergeInto_error he
    exact h.follow (List.mem_append_left _ hparameter) he

end

section

variable (h : site.Finds method b (site.responses.map Prod.snd) (site.Gives method) P bad)

include h

theorem responseField {code : String} {response : Json}
    (hresponse : (code, response) ∈ site.responses) (p : Progress) :
    Ensures (site.responseField b method code response) p (fun found _ => ∀ f ∈ found, P f)
      bad := by
  unfold Site.responseField
  apply ensures_lift_bind
  · intro target htarget
    apply ensures_lift_bind
    · intro found hfound
      cases found with
      | none => exact ensures_modify_bind (ensures_pure fun f hf => by cases hf)
      | some s =>
        exact (h.field (.response hresponse htarget hfound) _ _ p).mono
          (fun found _ hfound f hf => hfound f hf f.position) fun _ he => he
    · exact fun e he => h.invalid (responseSchema_error he)
  · intro e he
    exact h.follow (List.mem_map_of_mem hresponse) he

theorem responseFields {taken : List (String × Json)} (htaken : taken ⊆ site.responses)
    (p : Progress) :
    Ensures (site.responseFields b method taken) p (fun fields _ => ∀ f ∈ fields, P f) bad := by
  induction taken generalizing p with
  | nil => exact ensures_pure fun f hf => absurd hf List.not_mem_nil
  | cons entry rest ih =>
    obtain ⟨hentry, hrest⟩ := List.cons_subset.1 htaken
    apply ensures_bind (h.responseField hentry p)
    intro found p' hfound
    apply ensures_bind (ih hrest p')
    intro fields p'' hfields
    refine ensures_pure fun f hf => ?_
    rcases List.mem_append.1 hf with hf | hf
    · exact hfound f (Option.mem_toList.1 hf)
    · exact hfields f hf

theorem responsesType (p : Progress) :
    Ensures (site.responsesType b method) p
      (fun type _ => type.kind = .struct ∧ ∀ f ∈ type.fields, P f) bad := by
  apply ensures_bind (h.responseFields (List.Subset.refl site.responses) p)
  intro fields p' hfields
  exact ensures_pure ⟨rfl, hfields⟩

end

end Finds

end Site

end SchemaCatalog.Operation
