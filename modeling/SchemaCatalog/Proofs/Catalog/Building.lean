import SchemaCatalog.Proofs.Catalog.Spending

namespace SchemaCatalog.Builder

variable {b : Builder} {Q : String → Prop} {bad : CatalogError → Prop}
  {G : Nat → Progress → Progress → Prop} (h : Moves b Q bad G)

namespace Moves

include h

theorem listSpec {inner : BuildM (Option FieldSpec)} {element : Schema}
    (hinner : Spends G bad element.fieldCost inner) (hs : element.Inside Q) (stub path : String) :
    Spends G bad (fun _ => element.elementCost) (b.listSpec inner element stub path) :=
  h.element hinner hs (h.pure _) stub path fun type => some (FieldSpec.one type).many

theorem tableSpec {inner : BuildM (Option FieldSpec)} {value : Schema}
    (hinner : Spends G bad value.fieldCost inner) (hs : value.Inside Q) (stub path : String) :
    Spends G bad (fun _ => value.elementCost) (b.tableSpec inner value stub path) :=
  h.element hinner hs (h.pure _) stub path fun type => some (FieldSpec.map type)

theorem alone {s : Schema} (hs : s.Inside Q) (halone : s.standsAlone = true)
    (stub path : String) {asChoice : Bool}
    (hchoice : asChoice = true → s.reference = none ∧ s.shape = .choice) :
    Spends G bad s.fieldCost (do return some (← b.requestSpec s stub path asChoice)) := by
  intro p
  have hspec : Ensures (b.requestSpec s stub path asChoice) p
      (fun spec p' => spec.isPlain = true ∧ G s.cost p p') bad := by
    refine ensures_bind (h.request p hs ?_ ⟨stub, rfl⟩) fun type p' hp' => ?_
    · exact hchoice
    · exact ensures_pure ⟨FieldSpec.isPlain_one type, hp'⟩
  apply ensures_bind hspec
  intro spec p' hp'
  obtain ⟨hplain, hp'⟩ := hp'
  have hcost : s.fieldCost (some spec) = s.cost := by
    simp [Schema.fieldCost, halone, hplain]
  exact ensures_pure (hcost ▸ hp')

/-- A field costs what its schema allows. -/
theorem fieldFor (s : Schema) (hs : s.Inside Q) (stub path : String) :
    Spends G bad s.fieldCost (b.fieldFor stub path s) := by
  induction s using Schema.child_induction generalizing stub path with
  | h s ih =>
    -- a list or table costs more than its element, whatever is found for that
    have hless {c : Schema} (hc : Schema.Child c s) {x : BuildM (Option FieldSpec)}
        (hx : Spends G bad (fun _ => c.elementCost) x) : Spends G bad s.fieldCost x := by
      refine h.weaken hx fun spec => ?_
      have := Schema.elementCost_lt hc
      have := s.le_fieldCost spec
      omega
    rw [fieldFor_eq]
    cases hholding : s.holding with
    | follows r =>
      intro p
      apply ensures_bind (h.follow path p (hs.reference (Schema.reference_of_follows hholding)))
      exact fun _ _ hp' => ensures_pure (h.mono (Nat.zero_le _) hp')
    | plainly spec => exact h.pure _
    | list element segment =>
      have hchild := Schema.child_of_holding_list hholding
      have helement := hs.child hchild
      exact hless hchild (h.listSpec (ih element hchild helement _ _) helement _ _)
    | table value =>
      have hchild := Schema.child_of_holding_table hholding
      have hvalue := hs.child hchild
      exact hless hchild (h.tableSpec (ih value hchild hvalue _ _) hvalue _ _)
    | typed asChoice =>
      apply h.alone hs (Schema.standsAlone_of_typed hholding)
      intro hchoice
      exact Schema.choice_of_typed (hchoice ▸ hholding)
    | refused code message => exact h.warn_none _ _ _

theorem propertyField {s : Schema} (hs : s.Inside Q) (type key : String) :
    Spends G bad (fun _ => s.elementCost) (b.propertyField type key s) := by
  have hfield : Spends G bad (fun _ => s.elementCost)
      (b.fieldFor key s!"{type}/properties/{key}" s) := by
    refine h.weaken (h.fieldFor s hs _ _) fun spec => ?_
    have := s.fieldCost_le spec
    have := s.elementCost_eq
    have := s.cost_pos
    omega
  exact h.map hfield _

theorem patternField {s : Schema} (hs : s.Inside Q) (type pattern : String) :
    Spends G bad (fun _ => s.elementCost) (b.patternField type pattern s) := by
  unfold Builder.patternField
  dsimp only
  split
  · exact h.warn_none _ _ _
  · exact h.element (h.fieldFor s hs _ _) hs (h.pure _) _ _ _

theorem collectFields {step : String → Schema → BuildM (Option Field)}
    {table : List (String × Schema)}
    (hstep : ∀ key s, (key, s) ∈ table → Spends G bad (fun _ => s.elementCost) (step key s)) :
    Spends G bad (fun _ => (table.map (·.2.elementCost)).sum) (collectFields step table) := by
  induction table with
  | nil => exact h.pure []
  | cons entry rest ih =>
    obtain ⟨key, s⟩ := entry
    have hrest := ih fun key s hs => hstep key s (List.mem_cons_of_mem _ hs)
    rw [List.map_cons, List.sum_cons]
    apply h.seq (hstep key s List.mem_cons_self)
    · exact fun field => h.map hrest fun fields => field.toList ++ fields
    · exact Nat.le_refl _

theorem additionalType {r : Request} (hr : r.schema.Inside Q) :
    Spends G bad (fun _ => (r.schema.undeclared.map Schema.elementCost).sum)
      (b.additionalType r) := by
  unfold Builder.additionalType
  split
  · exact h.pure _
  · split
    · exact h.pure _
    · rename_i value hvalue
      have hinside := hr.child (.additional hvalue)
      have hsum : (r.schema.undeclared.map Schema.elementCost).sum = value.elementCost := by
        simp [Schema.undeclared, hvalue]
      rw [hsum]
      exact h.element (h.fieldFor value hinside _ _) hinside (h.pure _) _ _ some
    · exact h.pure _

theorem memberField {member : Schema} (hs : member.Inside Q) (path keyword : String) :
    Spends G bad (fun _ => 0) (b.memberField path keyword member) := by
  unfold Builder.memberField
  split
  · rename_i r hr
    have hfollow : Spends G bad (fun _ => 0) (b.referenceSpec r path) :=
      fun p => h.follow path p (hs.reference hr)
    exact h.map hfollow _
  · split
    · exact h.pure _
    · exact h.warn_none _ _ _

theorem memberFields {members : List Schema} (hs : ∀ s ∈ members, s.Inside Q)
    (path keyword : String) (i : Nat) :
    Spends G bad (fun _ => 0) (b.memberFields path keyword i members) := by
  induction members generalizing i with
  | nil => exact h.pure []
  | cons member rest ih =>
    have hrest := ih (fun s hmem => hs s (List.mem_cons_of_mem _ hmem)) (i + 1)
    apply h.seq (h.memberField (hs member List.mem_cons_self) _ keyword)
    · exact fun field => h.map hrest fun fields => field.toList ++ fields
    · exact Nat.le_refl 0

theorem buildChoice {r : Request} (hr : r.schema.Inside Q) :
    Spends G bad (fun _ => 0) (b.buildChoice r) := by
  have hmembers (s : Schema) (hs : s ∈ r.schema.oneOf.getD []) : s.Inside Q := by
    obtain ⟨list, hlist, hmem⟩ := mem_getD_nil hs
    exact hr.child (.oneOf hlist hmem)
  exact h.map (h.memberFields hmembers _ _ 0) _

theorem buildPair {r : Request} (hr : r.schema.Inside Q) :
    Spends G bad (fun _ => 0) (b.buildPair r) := by
  have hmembers (s : Schema) (hs : s ∈ r.schema.anyOf.getD []) : s.Inside Q := by
    obtain ⟨list, hlist, hmem⟩ := mem_getD_nil hs
    exact hr.child (.anyOf hlist hmem)
  unfold Builder.buildPair
  dsimp only
  split
  · exact h.map (h.warn _ _ _) _
  · exact h.map (h.memberFields hmembers _ _ 0) _

theorem buildObject {r : Request} (hr : r.schema.Inside Q) :
    Spends G bad (fun _ => r.schema.cost - 1) (b.buildObject r) := by
  have hproperty {key : String} {s : Schema} (hs : (key, s) ∈ r.schema.properties.getD []) :
      s.Inside Q := by
    obtain ⟨table, htable, hmem⟩ := mem_getD_nil hs
    exact hr.child (.property htable hmem)
  have hpattern {key : String} {s : Schema} (hs : (key, s) ∈ r.schema.patternProperties.getD []) :
      s.Inside Q := by
    obtain ⟨table, htable, hmem⟩ := mem_getD_nil hs
    exact hr.child (.pattern htable hmem)
  have hcost := r.schema.parts_lt_cost
  rw [Schema.parts, List.map_append, List.map_append, List.sum_append, List.sum_append,
    List.map_map, List.map_map] at hcost
  have hproperties := h.collectFields fun key s hs => h.propertyField (hproperty hs) r.name key
  have hpatterns := h.collectFields fun key s hs => h.patternField (hpattern hs) r.name key
  unfold Builder.buildObject
  dsimp only
  apply h.seq hproperties
  · intro properties
    apply h.seq hpatterns
    · exact fun patternFields => h.map (h.additionalType hr) _
    · exact Nat.le_refl _
  · exact Nat.le_pred_of_lt hcost

theorem buildAlias {r : Request} (hr : r.schema.Inside Q) (hform : formOf r = .alias) :
    Spends G bad (fun _ => r.schema.cost - 1) (b.buildAlias r) := by
  have halone := standsAlone_of_alias hform
  have hfield : Spends G bad (fun _ => r.schema.cost - 1)
      (b.fieldFor r.stub s!"{r.name}/value" r.schema) := by
    refine h.weaken (h.fieldFor r.schema hr _ _) fun spec => ?_
    simp [Schema.fieldCost, halone]
  exact h.map hfield _

theorem buildType {r : Request} (hr : r.schema.Inside Q) :
    Spends G bad (fun _ => r.schema.cost - 1) (b.buildType r) := by
  have hfree {x : BuildM CatalogType} (hx : Spends G bad (fun _ => 0) x) :
      Spends G bad (fun _ => r.schema.cost - 1) x :=
    h.weaken hx fun _ => Nat.zero_le _
  have hdescribed {x : BuildM CatalogType} (hx : Spends G bad (fun _ => r.schema.cost - 1) x) :
      Spends G bad (fun _ => r.schema.cost - 1)
        (do return { ← x with description := r.schema.keywords.description }) :=
    h.map hx _
  unfold Builder.buildType
  cases hform : formOf r with
  | choice => exact hdescribed (hfree (h.buildChoice hr))
  | object => exact hdescribed (h.buildObject hr)
  | pair => exact hdescribed (hfree (h.buildPair hr))
  | «alias» => exact hdescribed (h.buildAlias hr hform)

end Moves

end SchemaCatalog.Builder
