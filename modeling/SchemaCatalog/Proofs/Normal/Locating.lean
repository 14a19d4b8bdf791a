import SchemaCatalog.Proofs.Normal.Inlining
import SchemaCatalog.Proofs.Normal.AllOf
import SchemaCatalog.Normal.Basic

namespace SchemaCatalog

/-- If the error is of a pointer that leads nowhere, it says that the pointer stands at a place that
passes the test. -/
def CatalogError.LocatedBy (P : String → Prop) (e : CatalogError) : Prop :=
  ∀ r location, e = .unresolvedPointer r location → ∃ place, location = some place ∧ P place

namespace CatalogError

variable {P Q : String → Prop} {e : CatalogError}

theorem LocatedBy.mono (h : e.LocatedBy P) (hPQ : ∀ place, P place → Q place) :
    e.LocatedBy Q := by
  intro r location he
  obtain ⟨place, hlocation, hplace⟩ := h r location he
  exact ⟨place, hlocation, hPQ place hplace⟩

theorem locatedBy_cyclic (P : String → Prop) (chain : List String) :
    (cyclicReference chain).LocatedBy P :=
  nofun

theorem LocatedBy.locate (h : e.LocatedBy P) (path : String) : e.locate path = e := by
  cases e with
  | unresolvedPointer r location =>
    obtain ⟨place, rfl, _⟩ := h r location rfl
    rfl
  | _ => rfl

theorem Unlocated.locate {reference : String} (h : e.Unlocated reference) (path : String) :
    (e.locate path).LocatedBy (· = path) := by
  obtain ⟨document, rfl⟩ | rfl := h
  · exact nofun
  · rintro r location heq
    cases heq
    exact ⟨path, rfl, rfl⟩

end CatalogError

namespace Registry

/-- A place in a tree whose root is that of a schema, or the target of a reference. -/
def TreePlace (registry : Registry) (place : String) : Prop :=
  Starts "#" place ∨
    ∃ reference target, registry.resolve reference = .ok target ∧ Starts reference place

end Registry

namespace Schema

variable {scope : Scope} {registry : Registry} {path r : String} {fuel : Nat} {e : CatalogError}

theorem expand_of_inlinable (h : scope.isInlinable r = .ok true) :
    ∃ copy, scope.registry.expand r = .ok copy := by
  rw [Scope.isInlinable] at h
  split at h
  · cases h
  · obtain ⟨target, htarget, _⟩ := bind_eq_ok h
    refine ⟨target.qualify (Reference.parse r).document, ?_⟩
    rw [Registry.expand, htarget]
    rfl

/-- Inlining at a node says of each pointer that leads nowhere that it stands at the node. -/
theorem located_inlineNode (node : Schema) (st : InlineState) :
    Ensures (inlineNode scope path fuel node) st (fun _ _ => True)
      (CatalogError.LocatedBy (· = path)) := by
  induction fuel generalizing node st with
  | zero => exact ensures_pure trivial
  | succ fuel ih =>
    unfold inlineNode
    cases hr : node.reference with
    | none => exact ensures_pure trivial
    | some r =>
      apply ensures_lift_bind
      · intro inlinable hat
        cases inlinable with
        | false => exact ensures_pure trivial
        | true =>
          obtain ⟨copy, hcopy⟩ := expand_of_inlinable (Outcome.at_eq_ok hat)
          apply ensures_get_bind
          apply ensures_lift_bind
          · intro result _
            obtain ⟨recursive, known⟩ := result
            apply ensures_set_bind
            cases recursive with
            | true => exact ensures_pure trivial
            | false =>
              apply ensures_ok_bind hcopy
              apply ensures_modify_bind
              exact ih _ _
          · intro e he
            obtain ⟨chain, rfl, _⟩ := Scope.verdictOf_error he
            exact CatalogError.locatedBy_cyclic _ chain
      · intro e he
        obtain ⟨e', he', rfl⟩ := Outcome.at_eq_error he
        exact (Registry.resolve_error (Scope.isInlinable_error he')).locate path

theorem located_inlinePass {root : Schema} {st : InlineState}
    (h : (inlinePass scope root).run st = .error e) : e.LocatedBy (Starts "#") := by
  have hwalk : Runs.outcome (inlinePass scope root) st = .error e := h
  obtain ⟨place, node, st', hplace, he⟩ := walk_error hwalk
  apply ((located_inlineNode node st').of_error he).mono
  rintro _ rfl
  exact hplace

theorem located_inlineReferences {root : Schema}
    (h : root.inlineReferences scope = .error e) : e.LocatedBy (Starts "#") := by
  have hfrom {known : Entries Bool} {last : List String} {passed left : Nat} {root : Schema}
      (h : inlineFrom scope known last passed left root = .error e) :
      e.LocatedBy (Starts "#") := by
    induction left generalizing known last passed root with
    | zero =>
      cases h
      exact CatalogError.locatedBy_cyclic _ _
    | succ left ih =>
      rw [inlineFrom] at h
      obtain h | ⟨⟨root', st⟩, _, h⟩ := bind_eq_error h
      · exact located_inlinePass h
      · dsimp only at h
        split at h
        · cases h
        · exact ih h
  exact hfrom h

theorem combine_error {plain : String → Schema → Outcome Schema} {i : Nat} {combined : Schema}
    {members : List Schema} (h : combine plain path i combined members = .error e) :
    ∃ place member, Starts path place ∧ plain place member = .error e := by
  induction members generalizing i combined with
  | nil => cases h
  | cons member rest ih =>
    rw [combine] at h
    obtain h | ⟨_, _, h⟩ := bind_eq_error h
    · exact ⟨_, member, (starts_append path "/").trans (starts_append _ (toString i)), h⟩
    · exact ih h

theorem mergeNode_error {plain : String → Schema → Outcome Schema} {node : Schema} {n : Nat}
    (h : (mergeNode plain path node).run n = .error e) :
    ∃ place member, Starts path place ∧ plain place member = .error e := by
  unfold mergeNode at h
  split at h
  · cases h
  · rename_i members _
    cases hcombine : combine plain s!"{path}/allOf" 0 {} members with
    | ok combined =>
      rw [hcombine] at h
      cases h
    | error e' =>
      rw [hcombine] at h
      cases h
      obtain ⟨place, member, hplace, he⟩ := combine_error hcombine
      exact ⟨place, member, (starts_append path "/allOf").trans hplace, he⟩

theorem located_mergeTree {P : String → Prop} {plain : String → Schema → Outcome Schema}
    {root : Schema} (hplain : ∀ place m e, Starts path place → plain place m = .error e →
      e.LocatedBy P)
    (h : (root.walk (mergeNode plain) path).run 0 = .error e) : e.LocatedBy P := by
  have hwalk : Runs.outcome (root.walk (mergeNode plain) path) 0 = .error e := h
  obtain ⟨place, node, n, hplace, he⟩ := walk_error hwalk
  obtain ⟨place', member, hplace', he⟩ := mergeNode_error he
  exact hplain place' member e (hplace.trans hplace') he

/-- Expanding a member says of each pointer that leads nowhere that it stands in the place of the
member, or in a tree that is merged on the way. -/
theorem located_expandMember {chain : List String} {m : Schema}
    (h : expandMember registry fuel chain path m = .error e) :
    e.LocatedBy fun place => place = path ∨
      ∃ reference target, registry.resolve reference = .ok target ∧ Starts reference place := by
  induction fuel generalizing chain path m e with
  | zero =>
    cases hr : m.reference with
    | none =>
      rw [expandMember_of_closed hr] at h
      cases h
    | some r =>
      simp only [expandMember, hr] at h
      cases h
      exact CatalogError.locatedBy_cyclic _ _
  | succ fuel ih =>
    cases hr : m.reference with
    | none =>
      rw [expandMember_of_closed hr] at h
      cases h
    | some r =>
      by_cases hmem : r ∈ chain
      · rw [expandMember_of_mem hr hmem] at h
        cases h
        exact CatalogError.locatedBy_cyclic _ _
      · rw [expandMember_of_fresh hr hmem] at h
        obtain h | ⟨copy, hcopy, h⟩ := bind_eq_error h
        · obtain ⟨e', he', rfl⟩ := Outcome.at_eq_error h
          have hunlocated := Registry.resolve_error (Registry.expand_eq_error he')
          exact (hunlocated.locate path).mono fun _ heq => .inl heq
        · obtain ⟨target, htarget, _⟩ := Registry.expand_eq_ok (Outcome.at_eq_ok hcopy)
          obtain h | ⟨merged, _, h⟩ := bind_eq_error h
          · apply located_mergeTree ?_ h
            intro place m e hplace he
            apply (ih he).mono
            rintro place' (rfl | hplace')
            · exact .inr ⟨r, target, htarget, hplace⟩
            · exact .inr hplace'
          · exact ih h

theorem located_mergeAllOf {root : Schema} (h : root.mergeAllOf registry = .error e) :
    e.LocatedBy registry.TreePlace := by
  apply located_mergeTree ?_ h
  intro place m e hplace he
  apply (located_expandMember he).mono
  rintro place' (rfl | hplace')
  · exact .inl hplace
  · exact .inr hplace'

/-- Where bringing a schema to normal form finds a pointer that leads nowhere, it says in which tree
and where in it. -/
theorem normalize_located {root : Schema} (h : root.normalize scope = .error e) :
    e.LocatedBy scope.registry.TreePlace := by
  rw [normalize] at h
  obtain h | ⟨_, _, h⟩ := bind_eq_error h
  · exact (located_inlineReferences h).mono fun _ hplace => .inl hplace
  · obtain h | ⟨⟨merged, count⟩, _, h⟩ := bind_eq_error h
    · exact located_mergeAllOf h
    · dsimp only at h
      split at h
      · obtain h | ⟨_, _, h⟩ := bind_eq_error h
        · exact (located_inlineReferences h).mono fun _ hplace => .inl hplace
        · cases h
      · cases h

end Schema

end SchemaCatalog
