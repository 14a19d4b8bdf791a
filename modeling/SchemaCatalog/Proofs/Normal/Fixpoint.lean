import SchemaCatalog.Proofs.Normal.Pass

namespace SchemaCatalog

namespace Scope

theorem Stays.cases {scope : Scope} {r : String} (h : scope.Stays r) :
    r ∈ scope.options.kept ∨
      (∃ target, scope.registry.resolve r = .ok target ∧ target.isObject = true) ∨
        scope.Recursive r := by
  cases h with
  | inl h =>
    cases isInlinable_eq_false h with
    | inl h => exact .inl (List.contains_iff_mem.1 h)
    | inr h => exact .inr (.inl h)
  | inr h => exact .inr (.inr ((isRecursive_ok h.2).1 rfl))

theorem verdictOf_eq_ok {scope : Scope} {known : Entries Bool} {r : String} {verdict : Bool}
    (hknown : scope.Known known) (h : scope.isRecursive r = .ok verdict) :
    ∃ known', scope.verdictOf known r = .ok (verdict, known') ∧ scope.Known known' := by
  cases hverdict : scope.verdictOf known r with
  | ok result =>
    obtain ⟨verdict', known'⟩ := result
    obtain ⟨hrecursive, hknown'⟩ := verdictOf_ok hknown hverdict
    cases h.symm.trans hrecursive
    exact ⟨known', rfl, hknown'⟩
  | error e =>
    rw [verdictOf] at hverdict
    split at hverdict
    · cases hverdict
    · rw [h] at hverdict
      cases hverdict

end Scope

namespace Schema

variable {scope : Scope}

/-- A node whose reference stays is left as it is, and this never fails. -/
theorem ensures_inlineNode_stays {path : String} {fuel : Nat} {node : Schema} {st : InlineState}
    (hknown : scope.Known st.known) (hstays : ∀ r, node.reference = some r → scope.Stays r) :
    Ensures (inlineNode scope path (fuel + 1) node) st
      (fun t st' => node = t ∧ scope.Known st'.known ∧ st'.inlined = st.inlined)
      (fun _ => False) := by
  unfold inlineNode
  cases hr : node.reference with
  | none => exact ensures_pure ⟨rfl, hknown, rfl⟩
  | some r =>
    cases hstays r hr with
    | inl hinlinable =>
      apply ensures_ok_bind (Outcome.at_of_ok hinlinable path)
      exact ensures_pure ⟨rfl, hknown, rfl⟩
    | inr h =>
      obtain ⟨hinlinable, hrecursive⟩ := h
      obtain ⟨known', hverdict, hknown'⟩ := Scope.verdictOf_eq_ok hknown hrecursive
      apply ensures_ok_bind (Outcome.at_of_ok hinlinable path)
      apply ensures_get_bind
      apply ensures_ok_bind hverdict
      apply ensures_set_bind
      exact ensures_pure ⟨rfl, hknown', rfl⟩

theorem visits_inlineNode_stays {root : Schema} (hstays : ∀ r ∈ root.references, scope.Stays r) :
    Visits (fun path node => inlineNode scope path (scope.registry.referenceBound + 1) node)
      (Within · root) (fun st => scope.Known st.known ∧ st.inlined = []) (fun _ => Eq)
      (fun _ => False) where
  below h hc := h.below hc
  node := by
    intro path s t st hs hst halike
    have heq := halike.eq
    subst heq
    refine (ensures_inlineNode_stays hst.1 fun r hr => ?_).mono (fun u st' h => ?_) fun _ h => h
    · exact hstays r (references_within hs (mem_references_cases.2 (.inl hr)))
    · obtain ⟨hu, hknown, hinlined⟩ := h
      exact ⟨⟨⟨hknown, hinlined.trans hst.2⟩, fun _ _ h => h⟩, hu⟩

theorem inlinePass_stays {root : Schema} {known : Entries Bool} (hknown : scope.Known known)
    (hstays : ∀ r ∈ root.references, scope.Stays r) :
    ∃ st, (inlinePass scope root).run { known := known } = .ok (root, st) ∧ st.inlined = [] := by
  have h := (visits_inlineNode_stays hstays).walk "#" root
    { known := known } (.refl root) ⟨hknown, rfl⟩
  obtain ⟨t, st, hrun, hafter, ht⟩ | ⟨_, _, h⟩ := h.cases
  · subst ht
    exact ⟨st, hrun, hafter.1.2⟩
  · exact h.elim

theorem inlineFrom_stays {known : Entries Bool} {last : List String} {passed left passes : Nat}
    {root tree : Schema} (hknown : scope.Known known)
    (h : inlineFrom scope known last passed left root = .ok (tree, passes)) :
    (∀ r ∈ tree.references, scope.Stays r) ∧ 0 < left := by
  induction left generalizing known last passed root with
  | zero => cases h
  | succ left ih =>
    refine ⟨?_, Nat.succ_pos left⟩
    obtain ⟨t, st, hpassing, hpassed, hstep⟩ | ⟨e, hstep, _⟩ :=
      inlineFrom_step hknown last passed left root
    · rw [hstep] at h
      split at h
      · rename_i hnone
        cases h
        obtain ⟨heq, hstays⟩ := hpassed.unchanged (List.isEmpty_iff.1 hnone)
        exact heq ▸ hstays
      · exact (ih hpassing.known h).1
    · cases hstep.symm.trans h

/-- Every reference left by inlining is kept by option, denotes an object or is recursive, and
inlining again takes one pass and changes nothing. -/
theorem inlineReferences_fixpoint {root tree : Schema} {passes : Nat}
    (h : root.inlineReferences scope = .ok (tree, passes)) :
    (∀ path node reference, (path, node) ∈ tree.nodes "#" → node.reference = some reference →
      reference ∈ scope.options.kept ∨
        (∃ target, scope.registry.resolve reference = .ok target ∧ target.isObject = true) ∨
          scope.Recursive reference) ∧
      tree.inlineReferences scope = .ok (tree, 1) := by
  obtain ⟨hstays, hpasses⟩ := inlineFrom_stays Scope.known_nil h
  constructor
  · intro path node reference hnode hreference
    have hwithin := mem_nodes_iff.1 ⟨path, hnode⟩
    exact (hstays _ (mem_references_iff.2 ⟨node, hwithin, hreference⟩)).cases
  · obtain ⟨st, hrun, hnone⟩ := inlinePass_stays Scope.known_nil hstays
    obtain ⟨left, hleft⟩ := Nat.exists_eq_succ_of_ne_zero (Nat.ne_of_gt hpasses)
    rw [inlineReferences, hleft, inlineFrom]
    simp only [hrun, bind, Except.bind, hnone]
    rfl

def aliased : Schema where
  properties := some [("owner", .ofReference "#/definitions/Person")]
  definitions := some [("Name", .ofReference "#/definitions/Text"), ("Text", .ofType "string"),
    ("Tree", { items := some (.single (.ofReference "#/definitions/Tree")) }),
    ("Person", { properties := some [("name", .ofReference "#/definitions/Name"),
      ("tree", .ofReference "#/definitions/Tree")] })]

def aliasedScope : Scope where
  registry := ({} : Registry).registerRoot aliased

theorem inlineReferences_fixpoint_aliased :
    ∃ tree, aliased.inlineReferences aliasedScope = .ok (tree, 2) ∧
      tree.inlineReferences aliasedScope = .ok (tree, 1) := by
  have hpasses : (aliased.inlineReferences aliasedScope).toOption.map Prod.snd = some 2 := by
    decide +kernel
  cases h : aliased.inlineReferences aliasedScope with
  | error e =>
    rw [h] at hpasses
    cases hpasses
  | ok result =>
    obtain ⟨tree, passes⟩ := result
    rw [h] at hpasses
    cases hpasses
    exact ⟨tree, rfl, (inlineReferences_fixpoint h).2⟩

end Schema

end SchemaCatalog
