import SchemaCatalog.Proofs.Catalog.Requests
import SchemaCatalog.Proofs.Catalog.Holding
import SchemaCatalog.Catalog.TypeShape

namespace SchemaCatalog.Builder

variable {given : List TypeRef} (b : Builder)

def specTargets (spec : Option FieldSpec) : List TypeRef := spec.toList.flatMap FieldSpec.targets

def fieldTargets (fields : List Field) : List TypeRef := fields.flatMap Field.targets

theorem targets_one (type : TypeRef) : (FieldSpec.one type).targets = [type] := rfl

theorem targets_many (spec : FieldSpec) : spec.many.targets = spec.targets := rfl

theorem targets_map (value : TypeRef) : (FieldSpec.map value).targets = [value, value] := rfl

theorem asksFor_primitive {α : Type} {a : α} {refs : α → List TypeRef}
    (h : ∀ type ∈ refs a, type.isPrimitive = true) : AsksFor given (pure a) refs := by
  refine fun p _ => ensures_pure ⟨.refl p, fun name hname => ?_⟩
  cases h _ hname

theorem asksFor_plainly {s : Schema} {spec : FieldSpec} (h : s.holding = .plainly spec) :
    AsksFor given (return some spec) specTargets := by
  apply asksFor_primitive
  rcases Schema.cases_of_plainly h with ⟨p, h⟩ | ⟨_, h⟩ | ⟨_, h⟩ <;> subst h <;>
    simp [specTargets, FieldSpec.scalar, targets_one, targets_many, targets_map,
      TypeRef.isPrimitive]

theorem asksFor_anyTable :
    AsksFor given (return some (.map (.primitive .any))) specTargets :=
  asksFor_primitive (by simp [specTargets, targets_map, TypeRef.isPrimitive])

theorem asksFor_referenceSpec (reference path : String) :
    AsksFor given (b.referenceSpec reference path) FieldSpec.targets := by
  intro p _
  unfold referenceSpec
  apply ensures_get_bind
  split
  · refine asksFor_then (asksFor_lift _) (fun target => ?_) p p.covers_nil
    apply asksFor_then (asksFor_lift _)
    intro target
    have hcount (p : Progress) : p.Asks { p with followed := p.followed + 1 } :=
      ⟨rfl, List.Subset.refl _, fun _ h => h, fun _ h => .inl h⟩
    apply asksFor_then (asksFor_modify hcount)
    intro _
    exact asksFor_bind (asksFor_request _) fun type => asksFor_pure (by simp [targets_one])
  · rename_i hknown
    dsimp only
    refine ensures_pure ⟨.refl p, fun name hname => ?_⟩
    have heq : name = b.referenceName (Reference.parse reference).name := by
      simpa [targets_one] using hname
    rw [heq, Progress.Answers]
    revert hknown
    cases p.catalog.hasType (b.referenceName (Reference.parse reference).name) <;> simp

theorem asksFor_elementType {spec : FieldSpec} (hspec : spec.targets ⊆ given) (schema : Schema)
    (stub path : String) :
    AsksFor given (b.elementType spec schema stub path) fun type => [type] := by
  unfold elementType
  split
  · exact asksFor_pure fun type htype => hspec (List.mem_singleton.1 htype ▸ List.mem_cons_self)
  · exact (asksFor_request _).imp (List.Subset.refl _) fun type => by simp

theorem asksFor_requestSpec (schema : Schema) (stub path : String) (asChoice : Bool) :
    AsksFor given (b.requestSpec schema stub path asChoice) FieldSpec.targets :=
  asksFor_bind (asksFor_request _) fun type => asksFor_pure (by simp [targets_one])

theorem asksFor_some {α : Type} {x : BuildM α} {refs : Option α → List TypeRef}
    (hx : AsksFor given x fun a => refs (some a)) :
    AsksFor given (do return some (← x)) refs :=
  asksFor_bind hx fun _ => asksFor_pure (List.subset_append_right _ _)

theorem targets_subset (given : List TypeRef) (spec : FieldSpec) :
    spec.targets ⊆ given ++ specTargets (some spec) := by
  simp [specTargets]

theorem asksFor_listSpec {inner : BuildM (Option FieldSpec)}
    (hinner : AsksFor given inner specTargets) (element : Schema) (stub path : String) :
    AsksFor given (b.listSpec inner element stub path) specTargets := by
  apply asksFor_bind hinner
  intro spec
  cases spec with
  | none => exact asksFor_pure (List.nil_subset _)
  | some spec =>
    apply asksFor_bind (asksFor_elementType b (targets_subset given spec) element stub path)
    intro type
    exact asksFor_pure (by simp [specTargets, targets_one, targets_many])

theorem asksFor_tableSpec {inner : BuildM (Option FieldSpec)}
    (hinner : AsksFor given inner specTargets) (value : Schema) (stub path : String) :
    AsksFor given (b.tableSpec inner value stub path) specTargets := by
  apply asksFor_bind hinner
  intro spec
  cases spec with
  | none => exact asksFor_anyTable
  | some spec =>
    apply asksFor_bind (asksFor_elementType b (targets_subset given spec) value stub path)
    intro type
    exact asksFor_pure (by simp [specTargets, targets_map])

theorem asksFor_fieldFor (stub path : String) (s : Schema) :
    AsksFor given (b.fieldFor stub path s) specTargets := by
  induction s using Schema.child_induction generalizing stub path with
  | h s ih =>
    rw [fieldFor_eq]
    cases hholding : s.holding with
    | follows reference =>
      exact asksFor_some (by simpa [specTargets] using asksFor_referenceSpec b reference path)
    | plainly spec => exact asksFor_plainly hholding
    | list element segment =>
      have helement := ih element (Schema.child_of_holding_list hholding)
      exact asksFor_listSpec b (helement _ _) _ _ _
    | table value =>
      have hvalue := ih value (Schema.child_of_holding_table hholding)
      exact asksFor_tableSpec b (hvalue _ _) _ _ _
    | typed asChoice =>
      exact asksFor_some (by simpa [specTargets] using asksFor_requestSpec b s stub path asChoice)
    | refused code message => exact asksFor_warn_none code path message rfl

def fieldTargets? (field : Option Field) : List TypeRef := fieldTargets field.toList

theorem fieldTargets_append (fields fields' : List Field) :
    fieldTargets (fields ++ fields') = fieldTargets fields ++ fieldTargets fields' :=
  List.flatMap_append

theorem targets_field (spec : FieldSpec) (name : String) (description : Option String) :
    (b.field spec name description).targets = spec.targets :=
  rfl

theorem asksFor_named {x : BuildM (Option FieldSpec)} (hx : AsksFor given x specTargets)
    (name : String) (description : Option String) :
    AsksFor given (do return (← x).map fun spec => b.field spec name description)
      fieldTargets? := by
  apply asksFor_bind hx
  intro spec
  cases spec with
  | none => exact asksFor_pure (List.nil_subset _)
  | some spec =>
    exact asksFor_pure (by simp [fieldTargets?, fieldTargets, targets_field, specTargets])

theorem asksFor_propertyField (type key : String) (schema : Schema) :
    AsksFor given (b.propertyField type key schema) fieldTargets? :=
  asksFor_named b (asksFor_fieldFor b _ _ schema) key _

theorem asksFor_patternField (type pattern : String) (schema : Schema) :
    AsksFor given (b.patternField type pattern schema) fieldTargets? := by
  unfold patternField
  dsimp only
  split
  · exact asksFor_warn_none _ _ _ rfl
  · apply asksFor_bind (asksFor_fieldFor b _ _ schema)
    intro spec
    cases spec with
    | none => exact asksFor_pure (List.nil_subset _)
    | some spec =>
      apply asksFor_bind (asksFor_elementType b (targets_subset given spec) schema _ _)
      intro value
      exact asksFor_pure (by simp [fieldTargets?, fieldTargets, targets_field, targets_map])

theorem asksFor_collectFields {step : String → Schema → BuildM (Option Field)}
    (hstep : ∀ given key schema, AsksFor given (step key schema) fieldTargets?)
    (table : List (String × Schema)) :
    AsksFor given (collectFields step table) fieldTargets := by
  induction table generalizing given with
  | nil => exact asksFor_pure (List.nil_subset _)
  | cons entry rest ih =>
    obtain ⟨key, schema⟩ := entry
    apply asksFor_bind (hstep _ key schema)
    intro field
    apply asksFor_bind ih
    intro fields
    apply asksFor_pure
    rw [fieldTargets_append]
    exact List.append_subset.2 ⟨by simp [fieldTargets?], by simp⟩

theorem asksFor_additionalType (r : Request) :
    AsksFor given (b.additionalType r) Option.toList := by
  unfold additionalType
  split
  · exact asksFor_pure (List.nil_subset _)
  · split
    · exact asksFor_primitive (by simp [TypeRef.isPrimitive])
    · apply asksFor_bind (asksFor_fieldFor b _ _ _)
      intro spec
      cases spec with
      | none => exact asksFor_pure (List.nil_subset _)
      | some spec =>
        apply asksFor_bind (asksFor_elementType b (targets_subset given spec) _ _ _)
        intro value
        exact asksFor_pure (by simp)
    · exact asksFor_pure (List.nil_subset _)

def typeTargets (type : CatalogType) : List TypeRef := fieldTargets type.fields

theorem asksFor_buildObject (r : Request) : AsksFor given (b.buildObject r) typeTargets := by
  unfold buildObject
  dsimp only
  apply asksFor_bind (asksFor_collectFields (fun _ => asksFor_propertyField b r.name) _)
  intro properties
  apply asksFor_bind (asksFor_collectFields (fun _ => asksFor_patternField b r.name) _)
  intro patternFields
  apply asksFor_bind (asksFor_additionalType b r)
  intro additional p hp
  refine ensures_pure ⟨.refl p, fun name hname => ?_⟩
  have hextra (value : Option TypeRef) (h : .named name ∈ fieldTargets
      (value.toList.map fun v => b.field (.map v) "additionalProperties" none)) :
      value = some (.named name) := by
    cases value with
    | none => cases h
    | some v => simpa [fieldTargets, targets_field, targets_map, eq_comm] using h
  rw [typeTargets, fieldTargets_append, fieldTargets_append, List.append_assoc] at hname
  cases List.mem_append.1 hname with
  | inl hname => exact hp name (by simp [hname])
  | inr hname =>
    cases List.mem_append.1 hname with
    | inl hname => exact hp name (by simp [hname])
    | inr hname =>
      have hvalue := hextra _ hname
      split at hvalue
      · cases hvalue
      · exact hp name (by simp [hvalue])

theorem asksFor_memberField (path keyword : String) (member : Schema) :
    AsksFor given (b.memberField path keyword member) fieldTargets? := by
  unfold memberField
  split
  · dsimp only
    apply asksFor_bind (asksFor_referenceSpec b _ path)
    intro spec
    apply asksFor_pure
    simp [fieldTargets?, fieldTargets, targets_field]
  · split
    · exact asksFor_primitive (by simp [fieldTargets?, fieldTargets, targets_field,
        FieldSpec.scalar, targets_one, TypeRef.isPrimitive])
    · exact asksFor_warn_none _ _ _ rfl

theorem asksFor_memberFields (path keyword : String) (i : Nat) (members : List Schema) :
    AsksFor given (b.memberFields path keyword i members) fieldTargets := by
  induction members generalizing given i with
  | nil => exact asksFor_pure (List.nil_subset _)
  | cons member rest ih =>
    apply asksFor_bind (asksFor_memberField b _ keyword member)
    intro field
    apply asksFor_bind (ih (i + 1))
    intro fields
    apply asksFor_pure
    rw [fieldTargets_append]
    exact List.append_subset.2 ⟨by simp [fieldTargets?], by simp⟩

theorem asksFor_buildChoice (r : Request) : AsksFor given (b.buildChoice r) typeTargets :=
  asksFor_bind (asksFor_memberFields b _ _ 0 _) fun _ =>
    asksFor_pure (List.subset_append_right _ _)

theorem asksFor_buildPair (r : Request) : AsksFor given (b.buildPair r) typeTargets := by
  unfold buildPair
  dsimp only
  split
  · exact asksFor_then (asksFor_warn _ _ _) fun _ => asksFor_pure (List.nil_subset _)
  · exact asksFor_bind (asksFor_memberFields b _ _ 0 _) fun _ =>
      asksFor_pure (List.subset_append_right _ _)

theorem asksFor_buildAlias (r : Request) : AsksFor given (b.buildAlias r) typeTargets := by
  apply asksFor_bind (asksFor_fieldFor b _ _ r.schema)
  intro spec
  cases spec with
  | none => exact asksFor_pure (List.nil_subset _)
  | some spec =>
    exact asksFor_pure (by simp [typeTargets, fieldTargets, targets_field, specTargets])

theorem asksFor_buildType (r : Request) : AsksFor given (b.buildType r) typeTargets := by
  have hdescribed {x : BuildM CatalogType} (hx : AsksFor given x typeTargets) :
      AsksFor given (do return { ← x with description := r.schema.keywords.description })
        typeTargets :=
    asksFor_bind hx fun type => asksFor_pure (List.subset_append_right _ _)
  unfold buildType
  match formOf r with
  | .choice => exact hdescribed (asksFor_buildChoice b r)
  | .object => exact hdescribed (asksFor_buildObject b r)
  | .pair => exact hdescribed (asksFor_buildPair b r)
  | .alias => exact hdescribed (asksFor_buildAlias b r)

end SchemaCatalog.Builder
