import SchemaCatalog.Proofs.Catalog.Drain
import SchemaCatalog.Operation.Methods

namespace SchemaCatalog.Operation

open Builder

variable {given : List TypeRef}

namespace Site

variable (site : Site) (b : Builder) (method : String)

def slotTargets (slots : List Slot) : List TypeRef := fieldTargets (slots.map Prod.fst)

def slotTargets? (slot : Option Slot) : List TypeRef := slotTargets slot.toList

theorem targets_slot (field : Field) (position : Option Position) (source : Json) :
    (slot field position source).1.targets = field.targets :=
  rfl

theorem asksFor_field (name path : String) (schema : Schema) (description : Option String) :
    AsksFor given (field b method name path schema description) fieldTargets? := by
  apply asksFor_then (asksFor_lift _)
  intro schema
  exact asksFor_named b (asksFor_fieldFor b _ _ schema) name _

theorem asksFor_slot {x : BuildM (Option Field)} (hx : AsksFor given x fieldTargets?)
    (position : Option Position) (source : Json) :
    AsksFor given (do return (← x).map fun field => slot field position source) slotTargets? := by
  apply asksFor_bind hx
  intro found
  cases found with
  | none => exact asksFor_pure (List.nil_subset _)
  | some found =>
    exact asksFor_pure (by
      simp [slotTargets?, slotTargets, fieldTargets?, fieldTargets, targets_slot])

theorem asksFor_parameterSlot (parameter : Json) :
    AsksFor given (site.parameterSlot b method parameter) slotTargets? := by
  unfold parameterSlot
  split
  · exact asksFor_pure (List.nil_subset _)
  · apply asksFor_then (asksFor_lift _)
    intro schema
    cases schema with
    | none => exact asksFor_pure (List.nil_subset _)
    | some schema => exact asksFor_slot (asksFor_field b method _ _ schema _) _ _

theorem asksFor_parameterSlots (parameters : List Json) :
    AsksFor given (site.parameterSlots b method parameters) slotTargets := by
  induction parameters generalizing given with
  | nil => exact asksFor_pure (List.nil_subset _)
  | cons parameter rest ih =>
    apply asksFor_bind (asksFor_parameterSlot site b method parameter)
    intro slot
    apply asksFor_bind ih
    intro slots
    apply asksFor_pure
    rw [slotTargets, List.map_append, fieldTargets_append]
    exact List.append_subset.2 ⟨by simp [slotTargets?, slotTargets], by simp [slotTargets]⟩

theorem asksFor_bodySlot : AsksFor given (site.bodySlot b method) slotTargets? := by
  unfold bodySlot
  split
  · exact asksFor_pure (List.nil_subset _)
  · apply asksFor_then (asksFor_lift _)
    intro body
    apply asksFor_then (asksFor_lift _)
    intro schema
    cases schema with
    | none => exact asksFor_pure (List.nil_subset _)
    | some schema => exact asksFor_slot (asksFor_field b method _ _ schema _) _ _

theorem asksFor_parametersType (shared : List Json) :
    AsksFor given (site.parametersType b method shared) typeTargets := by
  apply asksFor_then (asksFor_lift _)
  intro parameters
  apply asksFor_bind (asksFor_parameterSlots site b method parameters)
  intro slots
  apply asksFor_bind (asksFor_bodySlot site b method)
  intro body
  apply asksFor_pure
  rw [typeTargets, List.map_append, fieldTargets_append]
  exact List.append_subset.2 ⟨by simp [slotTargets], by simp [slotTargets?, slotTargets]⟩

theorem asksFor_responseField (code : String) (response : Json) :
    AsksFor given (site.responseField b method code response) fieldTargets? := by
  apply asksFor_then (asksFor_lift _)
  intro response
  apply asksFor_then (asksFor_lift _)
  intro schema
  cases schema with
  | none => exact asksFor_then (asksFor_record _) fun _ => asksFor_pure (List.nil_subset _)
  | some schema => exact asksFor_field b method code _ schema _

theorem asksFor_responseFields (responses : List (String × Json)) :
    AsksFor given (site.responseFields b method responses) fieldTargets := by
  induction responses generalizing given with
  | nil => exact asksFor_pure (List.nil_subset _)
  | cons entry rest ih =>
    obtain ⟨code, response⟩ := entry
    apply asksFor_bind (asksFor_responseField site b method code response)
    intro field
    apply asksFor_bind ih
    intro fields
    apply asksFor_pure
    rw [fieldTargets_append]
    exact List.append_subset.2 ⟨by simp [fieldTargets?], by simp⟩

theorem asksFor_responsesType : AsksFor given (site.responsesType b method) typeTargets :=
  asksFor_bind (asksFor_responseFields site b method _) fun _ =>
    asksFor_pure (List.subset_append_right _ _)

/-- What adding a type keeps: the construction is sound, what was covered still is, types stay, and
the name that is given is that of a type. -/
theorem ensures_addType {p : Progress} {type : CatalogType} (h : p.Sound [])
    (hcovers : p.Covers (typeTargets type)) :
    Ensures (addType type) p (fun name p' => p'.Sound [] ∧
      (∀ refs, p.Covers refs → p'.Covers refs) ∧
      (∀ name, p.catalog.hasType name = true → p'.catalog.hasType name = true) ∧
      ∀ n ∈ name, p'.catalog.hasType n = true) fun _ => True := by
  unfold addType
  split
  · exact ensures_pure ⟨h, fun _ h => h, fun _ h => h, nofun⟩
  · apply ensures_modify_bind
    refine ensures_pure ⟨h.addType hcovers (List.nil_subset _), fun _ h => h.addType type, ?_, ?_⟩
    · exact fun name hname => Catalog.hasType_addType.2 (.inl hname)
    · intro name hname
      cases hname
      exact Catalog.hasType_addType.2 (.inr rfl)

theorem ensures_method {p : Progress} (h : p.Sound []) (shared : List Json) :
    Ensures (site.method b shared) p (fun m p' => p'.Sound [] ∧
      ∀ name ∈ m.typeNames, p'.catalog.hasType name = true) fun _ => True := by
  unfold Site.method
  dsimp only
  apply ensures_bind (asksFor_parametersType site b _ shared p p.covers_nil)
  intro parameters p₁ h₁
  apply ensures_bind (asksFor_responsesType site b _ p₁ h₁.2)
  intro responses p₂ h₂
  have hsound := (h.asks h₁.1).asks h₂.1
  apply ensures_bind (ensures_addType hsound (h₂.1.covers h₁.2))
  intro parametersName p₃ h₃
  obtain ⟨hsound, hcovers, _, hparameters⟩ := h₃
  apply ensures_bind (ensures_addType hsound (hcovers _ h₂.2))
  intro responsesName p₄ h₄
  obtain ⟨hsound, _, hstay, hresponses⟩ := h₄
  refine ensures_pure ⟨hsound, fun name hname => ?_⟩
  cases List.mem_append.1 hname with
  | inl hname => exact hstay name (hparameters name (Option.mem_toList.1 hname))
  | inr hname => exact hresponses name (Option.mem_toList.1 hname)

end Site

variable (b : Builder) (document : Json) (dialect : Dialect)

theorem sound_addMethod {p : Progress} {m : Method} (h : p.Sound [])
    (hm : ∀ name ∈ m.typeNames, p.catalog.hasType name = true) :
    ({ p with catalog := p.catalog.addMethod m } : Progress).Sound [] := by
  refine ⟨h.settled, h.covered, h.distinct, fun m' hm' name hname => ?_⟩
  cases List.mem_append.1 hm' with
  | inl hm' => exact h.methods m' hm' name hname
  | inr hm' =>
    cases List.mem_singleton.1 hm'
    exact hm name hname

theorem ensures_addItemMethods (path : String) (item : Json) (verbs : List String) {p : Progress}
    (h : p.Sound []) :
    Ensures (addItemMethods b document dialect path item verbs) p (fun _ p' => p'.Sound [])
      fun _ => True := by
  induction verbs generalizing p with
  | nil => exact ensures_pure h
  | cons verb rest ih =>
    have hrest (count : Nat) (p' : Progress) (hp' : p'.Sound []) :
        Ensures (do return count + (← addItemMethods b document dialect path item rest)) p'
          (fun _ p' => p'.Sound []) fun _ => True :=
      ensures_bind (ih hp') fun _ _ h => ensures_pure h
    unfold addItemMethods
    dsimp only
    split
    · exact hrest 0 p h
    · apply ensures_bind (Site.ensures_method _ b h _)
      intro m p₁ h₁
      exact hrest 1 _ (sound_addMethod h₁.1 h₁.2)

theorem ensures_addPathMethods (paths : List (String × Json)) {p : Progress} (h : p.Sound []) :
    Ensures (addPathMethods b document dialect paths) p (fun _ p' => p'.Sound [])
      fun _ => True := by
  induction paths generalizing p with
  | nil => exact ensures_pure h
  | cons entry rest ih =>
    obtain ⟨path, item⟩ := entry
    apply ensures_lift_bind
    · intro item _
      apply ensures_bind (ensures_addItemMethods b document dialect path item verbs h)
      intro count p' h'
      exact ensures_bind (ih h') fun _ _ h => ensures_pure h
    · intro _ _
      trivial

theorem ensures_addMethods {p : Progress} (h : p.Sound []) :
    Ensures (addMethods b document dialect) p (fun _ p' => p'.Sound []) fun _ => True :=
  ensures_addPathMethods b document dialect _ h

end SchemaCatalog.Operation
