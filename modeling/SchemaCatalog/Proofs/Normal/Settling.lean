import SchemaCatalog.Proofs.Schema.Rewriting
import SchemaCatalog.Proofs.Normal.Fixpoint

namespace SchemaCatalog

namespace Schema

/-- Inlining at one node, with each verdict found anew. -/
def settleNode (scope : Scope) : Nat → Schema → Option Schema
  | 0, node => some node
  | fuel + 1, node =>
    match node.reference with
    | none => some node
    | some reference => do
      let inlinable ← (scope.isInlinable reference).toOption
      if !inlinable then return node
      let recursive ← (scope.isRecursive reference).toOption
      if recursive then return node
      let copy ← (scope.registry.expand reference).toOption
      settleNode scope fuel (node.clearReference.fillAbsent copy)

def settle (scope : Scope) : Schema → Option Schema :=
  settleNode scope (scope.registry.referenceBound + 1)

variable {scope : Scope}

theorem ensures_inlineNode_settles {path : String} {fuel : Nat} {node : Schema} {st : InlineState}
    (hknown : scope.Known st.known) :
    Ensures (inlineNode scope path fuel node) st
      (fun t st' => scope.Known st'.known ∧ settleNode scope fuel node = some t)
      (fun _ => settleNode scope fuel node = none) := by
  induction fuel generalizing node st with
  | zero => exact ensures_pure ⟨hknown, rfl⟩
  | succ fuel ih =>
    unfold inlineNode settleNode
    cases node.reference with
    | none => exact ensures_pure ⟨hknown, rfl⟩
    | some r =>
      dsimp only
      apply ensures_lift_bind
      · intro inlinable hat
        rw [Outcome.at_eq_ok hat]
        cases inlinable with
        | false => exact ensures_pure ⟨hknown, rfl⟩
        | true =>
          apply ensures_get_bind
          apply ensures_lift_bind
          · intro result hverdict
            obtain ⟨recursive, known⟩ := result
            obtain ⟨hrecursive, hknown'⟩ := Scope.verdictOf_ok hknown hverdict
            rw [hrecursive]
            apply ensures_set_bind
            cases recursive with
            | true => exact ensures_pure ⟨hknown', rfl⟩
            | false =>
              apply ensures_lift_bind
              · intro copy hcopy
                rw [hcopy]
                apply ensures_modify_bind
                exact ih hknown'
              · intro e he
                rw [he]
                rfl
          · intro e he
            -- a verdict is looked up or found, so it fails only where the search itself does
            cases hrecursive : scope.isRecursive r with
            | error _ => rfl
            | ok verdict =>
              obtain ⟨_, hverdict, _⟩ := Scope.verdictOf_eq_ok hknown hrecursive
              cases he.symm.trans hverdict
      · intro e he
        obtain ⟨_, herror, _⟩ := Outcome.at_eq_error he
        rw [herror]
        rfl

theorem acts_inlineNode :
    Acts (fun path node => inlineNode scope path (scope.registry.referenceBound + 1) node)
      (fun st => scope.Known st.known) (settle scope) :=
  fun _ _ _ hknown => ensures_inlineNode_settles hknown

theorem keepsEntries_settle : KeepsEntries (settle scope) := by
  suffices h : ∀ fuel, KeepsEntries (settleNode scope fuel) from h _
  intro fuel
  induction fuel with
  | zero =>
    intro s t h place key c hc
    cases h
    exact hc
  | succ fuel ih =>
    intro s t h place key c hc
    unfold settleNode at h
    split at h
    · cases h
      exact hc
    · obtain ⟨inlinable, _, h⟩ := Option.bind_eq_some_iff.1 h
      split at h
      · cases h
        exact hc
      · obtain ⟨recursive, _, h⟩ := Option.bind_eq_some_iff.1 h
        split at h
        · cases h
          exact hc
        · obtain ⟨copy, _, h⟩ := Option.bind_eq_some_iff.1 h
          refine ih _ t h place key c (entry_fillAbsent copy ?_)
          cases place <;> exact hc

theorem ensures_inlinePass_settles {known : Entries Bool} (hknown : scope.Known known)
    (root : Schema) :
    Ensures (inlinePass scope root) { known := known }
      (fun t st => (scope.Known st.known ∧ rewrite (settle scope) root = some t) ∧
        (st.inlined = [] ↔ ∀ r ∈ root.references, scope.Stays r))
      (fun _ => rewrite (settle scope) root = none) := by
  have hpass := (acts_inlineNode.walk "#" root hknown).and (ensures_inlinePass hknown root)
  obtain ⟨t, st, hrun, hsettled, hpassed⟩ | ⟨e, hrun, hnone, _⟩ := hpass.cases
  · change Runs.outcome (inlinePass scope root) _ = _ at hrun
    rw [Ensures, hrun]
    refine ⟨hsettled, fun hinlined => (hpassed.2.unchanged hinlined).2, fun hstays => ?_⟩
    obtain ⟨st', hrun', hinlined⟩ := inlinePass_stays hknown hstays
    cases hrun.symm.trans hrun'
    exact hinlined
  · change Runs.outcome (inlinePass scope root) _ = _ at hrun
    rw [Ensures, hrun]
    exact hnone

end Schema

namespace Scope

open Schema

/-- After `n` passes over `s` all references stay, and the schema is `t` then. -/
def Settles (scope : Scope) : Nat → Schema → Schema → Prop
  | 0, s, t => s = t ∧ ∀ r ∈ s.references, scope.Stays r
  | n + 1, s, t => ∃ u, rewrite (settle scope) s = some u ∧ Settles scope n u t

variable {scope : Scope} {n : Nat} {s t : Schema}

theorem Settles.stays (h : scope.Settles n s t) : ∀ r ∈ t.references, scope.Stays r := by
  induction n generalizing s with
  | zero => exact h.1 ▸ h.2
  | succ n ih =>
    obtain ⟨u, _, h⟩ := h
    exact ih h

theorem rewrite_of_stays (hs : ∀ r ∈ s.references, scope.Stays r) :
    rewrite (settle scope) s = some s := by
  obtain ⟨st, hrun, _⟩ := inlinePass_stays known_nil hs
  exact ((ensures_inlinePass_settles known_nil s).of_ok hrun).1.2

theorem Settles.eq_of_stays (h : scope.Settles n s t) (hs : ∀ r ∈ s.references, scope.Stays r) :
    t = s := by
  induction n with
  | zero => exact h.1.symm
  | succ n ih =>
    obtain ⟨u, hu, h⟩ := h
    rw [rewrite_of_stays hs] at hu
    cases hu
    exact ih h

theorem not_settles (h : rewrite (settle scope) s = none) : ¬ scope.Settles n s t := by
  intro hsettles
  cases n with
  | zero =>
    rw [rewrite_of_stays hsettles.2] at h
    cases h
  | succ n =>
    obtain ⟨u, hu, _⟩ := hsettles
    cases h.symm.trans hu

theorem settles_succ_iff {u : Schema} {left : Nat} (hu : rewrite (settle scope) s = some u)
    (hmoves : ¬ ∀ r ∈ s.references, scope.Stays r) :
    (∃ n < left + 1, scope.Settles n s t) ↔ ∃ n < left, scope.Settles n u t := by
  refine ⟨fun h => ?_, fun h => ?_⟩
  · obtain ⟨n, hn, h⟩ := h
    cases n with
    | zero => exact absurd h.2 hmoves
    | succ n =>
      obtain ⟨u', hu', h⟩ := h
      cases hu.symm.trans hu'
      exact ⟨n, Nat.lt_of_succ_lt_succ hn, h⟩
  · obtain ⟨n, hn, h⟩ := h
    exact ⟨n + 1, Nat.succ_lt_succ hn, u, hu, h⟩

theorem Settles.entry {place : Table} {key : String} {c : Schema} (h : scope.Settles n s t)
    (hc : s.under? place key = some c) :
    ∃ c', scope.Settles n c c' ∧ t.under? place key = some c' := by
  induction n generalizing s c with
  | zero =>
    obtain ⟨heq, hstays⟩ := h
    subst heq
    exact ⟨c, ⟨rfl, fun r hr => hstays r (references_child (child_of_entry hc) hr)⟩, hc⟩
  | succ n ih =>
    obtain ⟨u, hu, h⟩ := h
    obtain ⟨d, hd, hu⟩ := rewrite_entry keepsEntries_settle hu hc
    obtain ⟨c', hsettles, ht⟩ := ih h hu
    exact ⟨c', ⟨d, hd, hsettles⟩, ht⟩

end Scope

namespace Schema

variable {scope : Scope} {t : Schema}

/-- The passes succeed if and only if the schema settles in fewer of them than there are left. -/
theorem inlineFrom_eq_ok_iff {known : Entries Bool} {last : List String} {passed left : Nat}
    {root : Schema} (hknown : scope.Known known) :
    (∃ passes, inlineFrom scope known last passed left root = .ok (t, passes)) ↔
      ∃ n < left, scope.Settles n root t := by
  induction left generalizing known last passed root with
  | zero =>
    refine ⟨fun h => ?_, fun h => ?_⟩
    · obtain ⟨passes, h⟩ := h
      cases h
    · obtain ⟨n, hn, _⟩ := h
      exact absurd hn (Nat.not_lt_zero n)
  | succ left ih =>
    rw [inlineFrom]
    obtain ⟨u, st, hrun, ⟨hknown', hu⟩, hstays⟩ | ⟨e, hrun, hnone⟩ :=
      (ensures_inlinePass_settles hknown root).cases
    · change (inlinePass scope root).run { known := known } = .ok (u, st) at hrun
      simp only [hrun, bind, Except.bind, List.isEmpty_iff]
      split
      · rename_i hinlined
        -- nothing was replaced, so the schema had settled before this pass
        have hroot := hstays.1 hinlined
        have heq : u = root := Option.some.inj (hu.symm.trans (Scope.rewrite_of_stays hroot))
        subst heq
        constructor
        · intro h
          obtain ⟨passes, h⟩ := h
          cases h
          exact ⟨0, Nat.succ_pos left, rfl, hroot⟩
        · intro h
          obtain ⟨n, _, h⟩ := h
          rw [h.eq_of_stays hroot]
          exact ⟨passed + 1, rfl⟩
      · rename_i hinlined
        rw [ih hknown', Scope.settles_succ_iff hu fun hroot => hinlined (hstays.2 hroot)]
    · change (inlinePass scope root).run { known := known } = .error e at hrun
      simp only [hrun, bind, Except.bind]
      refine ⟨fun h => ?_, fun h => ?_⟩
      · obtain ⟨passes, h⟩ := h
        cases h
      · obtain ⟨n, _, h⟩ := h
        exact absurd h (Scope.not_settles hnone)

/-- Inlining succeeds if and only if the schema settles in fewer passes than are allowed. -/
theorem inlineReferences_eq_ok_iff {root : Schema} :
    (∃ passes, root.inlineReferences scope = .ok (t, passes)) ↔
      ∃ n < scope.options.maxPasses, scope.Settles n root t :=
  inlineFrom_eq_ok_iff Scope.known_nil

end Schema

end SchemaCatalog
