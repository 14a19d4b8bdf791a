import SchemaCatalog.Proofs.Normal.Fixpoint
import Mathlib.Order.Lattice.Nat

namespace SchemaCatalog

namespace Scope

variable {scope : Scope}

/-- A path of references that inlining a schema follows, from a reference of the schema on. -/
structure Follows (scope : Scope) (root : Schema) (path : List String) : Prop where
  isPath : scope.Path path
  starts : ∀ r ∈ path.head?, r ∈ root.references

/-- The length of the longest path that inlining a schema follows. -/
noncomputable def depth (scope : Scope) (root : Schema) : Nat :=
  sSup {n | ∃ path, scope.Follows root path ∧ path.length = n}

theorem follows_nil (root : Schema) : scope.Follows root [] :=
  ⟨⟨.nil, nofun⟩, nofun⟩

theorem depth_bounded (root : Schema) :
    BddAbove {n | ∃ path, scope.Follows root path ∧ path.length = n} := by
  refine ⟨scope.registry.referenceBound, fun n h => ?_⟩
  obtain ⟨path, hpath, hn⟩ := h
  exact hn ▸ Nat.le_of_lt hpath.isPath.length_lt

theorem Follows.length_le {root : Schema} {path : List String} (h : scope.Follows root path) :
    path.length ≤ scope.depth root :=
  le_csSup (depth_bounded root) ⟨path, h, rfl⟩

theorem exists_follows (root : Schema) :
    ∃ path, scope.Follows root path ∧ path.length = scope.depth root := by
  have hsome : {n | ∃ path, scope.Follows root path ∧ path.length = n}.Nonempty :=
    ⟨0, [], follows_nil root, rfl⟩
  exact Nat.sSup_mem hsome (depth_bounded root)

theorem depth_lt_referenceBound (root : Schema) :
    scope.depth root < scope.registry.referenceBound := by
  obtain ⟨path, hpath, hlength⟩ : ∃ path, scope.Follows root path ∧ _ := exists_follows root
  exact hlength ▸ hpath.isPath.length_lt

/-- A pass that replaces a reference leaves less to follow. -/
theorem Inherits.depth_lt {s t : Schema} (h : scope.Inherits s t)
    (hs : ∃ r ∈ s.references, scope.Expandable r) : scope.depth t < scope.depth s := by
  obtain ⟨path, hpath, hlength⟩ : ∃ path, scope.Follows t path ∧ _ := exists_follows t
  rw [← hlength]
  cases path with
  | nil =>
    obtain ⟨r, hr, hexpandable⟩ := hs
    have hsingle : scope.Follows s [r] := by
      refine ⟨Path.cons ⟨.nil, nofun⟩ hexpandable nofun, fun x hx => ?_⟩
      cases hx
      exact hr
    exact hsingle.length_le
  | cons b rest =>
    have hb := hpath.starts b rfl
    cases h b hb with
    | inl hstays =>
      exact absurd (hpath.isPath.expandable b List.mem_cons_self) hstays.not_expandable
    | inr h =>
      obtain ⟨a, ha, hab⟩ := h
      obtain ⟨middle, hlonger⟩ := hab.path hpath.isPath
      have hfollows : scope.Follows s (a :: (middle ++ b :: rest)) := by
        refine ⟨hlonger, fun x hx => ?_⟩
        cases hx
        exact ha
      have hle := hfollows.length_le
      simp only [List.length_cons, List.length_append] at hle ⊢
      omega

def withPasses (scope : Scope) (n : Nat) : Scope :=
  { scope with options := { scope.options with maxPasses := n } }

section

variable (scope : Scope) (n : Nat)

theorem isInlinable_withPasses : (scope.withPasses n).isInlinable = scope.isInlinable := rfl

theorem inlines_withPasses : (scope.withPasses n).inlines = scope.inlines := rfl

theorem successors_withPasses : (scope.withPasses n).successors = scope.successors := rfl

theorem followAliases_withPasses (fuel : Nat) (chain : List String) (current : String) :
    (scope.withPasses n).followAliases fuel chain current =
      scope.followAliases fuel chain current := by
  induction fuel generalizing chain current with
  | zero => rfl
  | succ fuel ih =>
    simp only [followAliases, ih, inlines_withPasses]
    rfl

theorem search_withPasses (goal : String) (fuel : Nat) (visited stack : List String) :
    (scope.withPasses n).search goal fuel visited stack = scope.search goal fuel visited stack := by
  induction fuel generalizing visited stack with
  | zero => rfl
  | succ fuel ih =>
    cases stack with
    | nil => rfl
    | cons current stack => simp only [search, ih, successors_withPasses]

theorem verdictOf_withPasses : (scope.withPasses n).verdictOf = scope.verdictOf := by
  have hrecursive : (scope.withPasses n).isRecursive = scope.isRecursive := by
    funext r
    simp only [isRecursive, checkAliases, leadsBack, followAliases_withPasses, search_withPasses]
    rfl
  funext known r
  simp only [verdictOf, hrecursive]

end

end Scope

namespace Schema

section

variable (scope : Scope) (n : Nat)

theorem inlineNode_withPasses (path : String) (fuel : Nat) (node : Schema) :
    inlineNode (scope.withPasses n) path fuel node = inlineNode scope path fuel node := by
  induction fuel generalizing node with
  | zero => rfl
  | succ fuel ih =>
    simp only [inlineNode, ih, Scope.verdictOf_withPasses, Scope.isInlinable_withPasses]
    rfl

theorem inlinePass_withPasses : inlinePass (scope.withPasses n) = inlinePass scope := by
  funext root
  simp only [inlinePass, inlineNode_withPasses]
  rfl

theorem inlineFrom_withPasses (known : Entries Bool) (last : List String) (passed left : Nat)
    (root : Schema) : inlineFrom (scope.withPasses n) known last passed left root =
      inlineFrom scope known last passed left root := by
  induction left generalizing known last passed root with
  | zero => rfl
  | succ left ih => simp only [inlineFrom, ih, inlinePass_withPasses]

end

variable {scope : Scope}

/-- With more passes left than references to follow, inlining ends by itself. -/
theorem inlineFrom_ends {known : Entries Bool} {last : List String} {passed left : Nat}
    {root : Schema} (hknown : scope.Known known) (hleft : scope.depth root < left) :
    (∃ tree passes, inlineFrom scope known last passed left root = .ok (tree, passes) ∧
      passed < passes ∧ passes ≤ passed + scope.depth root + 1) ∨
      ∃ e, inlineFrom scope known last passed left root = .error e ∧ scope.Fails e := by
  induction left generalizing known last passed root with
  | zero => exact absurd hleft (Nat.not_lt_zero _)
  | succ left ih =>
    obtain ⟨t, st, hpassing, hpassed, hstep⟩ | herror :=
      inlineFrom_step hknown last passed left root
    · rw [hstep]
      split
      · exact .inl ⟨t, passed + 1, rfl, by omega, by omega⟩
      · rename_i hsome
        -- a pass that replaced something shortened the paths, so those left still suffice
        have hexpandable := hpassing.expandable fun h => hsome (List.isEmpty_iff.2 h)
        have hdepth := hpassed.inherits.depth_lt hexpandable
        refine (ih hpassing.known (by omega)).imp (fun h => ?_) fun h => h
        obtain ⟨tree, passes, hrun, hmore, hfew⟩ := h
        exact ⟨tree, passes, hrun, by omega, by omega⟩
    · exact .inr herror

/-- What succeeds with some passes left succeeds alike with more. -/
theorem inlineFrom_more {known : Entries Bool} {last : List String} {passed left more : Nat}
    {root : Schema} {result : Schema × Nat} (hmore : left ≤ more)
    (h : inlineFrom scope known last passed left root = .ok result) :
    inlineFrom scope known last passed more root = .ok result := by
  induction left generalizing known last passed more root with
  | zero => cases h
  | succ left ih =>
    have hpos : 0 < more := Nat.lt_of_lt_of_le (Nat.succ_pos left) hmore
    obtain ⟨more, rfl⟩ := Nat.exists_eq_succ_of_ne_zero (Nat.ne_of_gt hpos)
    rw [inlineFrom] at h ⊢
    obtain ⟨⟨t, st⟩, hrun, h⟩ := bind_eq_ok h
    rw [hrun]
    dsimp only [bind, Except.bind] at h ⊢
    split at h
    · rename_i hnone
      rw [if_pos hnone]
      exact h
    · rename_i hsome
      rw [if_neg hsome]
      exact ih (Nat.le_of_succ_le_succ hmore) h

/-- The paths that inlining follows have a greatest length. With more passes than that it ends after
at most one pass more, or fails on a reference that denotes nothing or on a loop of aliases; and
once it succeeds, allowing more passes changes nothing. -/
theorem inlineReferences_ends (scope : Scope) (root : Schema) :
    ((∃ path, scope.Follows root path ∧ path.length = scope.depth root) ∧
      ∀ path, scope.Follows root path → path.length ≤ scope.depth root) ∧
    (scope.depth root + 1 ≤ scope.options.maxPasses →
      (∃ tree passes, root.inlineReferences scope = .ok (tree, passes) ∧
        1 ≤ passes ∧ passes ≤ scope.depth root + 1) ∨
      ∃ e, root.inlineReferences scope = .error e ∧
        (e.IsUnresolved ∨ ∃ chain, e = .cyclicReference chain ∧ scope.AliasLoop chain)) ∧
    ∀ tree passes more, root.inlineReferences scope = .ok (tree, passes) →
      scope.options.maxPasses ≤ more →
      root.inlineReferences (scope.withPasses more) = .ok (tree, passes) := by
  refine ⟨⟨Scope.exists_follows root, fun path h => h.length_le⟩, fun hpasses => ?_, ?_⟩
  · refine (inlineFrom_ends Scope.known_nil hpasses).imp (fun h => ?_) fun h => h
    obtain ⟨tree, passes, hrun, hsome, hfew⟩ := h
    exact ⟨tree, passes, hrun, hsome, by omega⟩
  · intro tree passes more h hmore
    rw [inlineReferences, inlineFrom_withPasses]
    exact inlineFrom_more hmore h

theorem inlineReferences_ends_aliased :
    ∃ tree passes, aliased.inlineReferences aliasedScope = .ok (tree, passes) ∧
      passes ≤ aliasedScope.depth aliased + 1 ∧
      aliased.inlineReferences (aliasedScope.withPasses 100) = .ok (tree, passes) := by
  have hok : (aliased.inlineReferences aliasedScope).isOk = true := by decide +kernel
  have hdepth : aliasedScope.depth aliased + 1 ≤ aliasedScope.options.maxPasses := by
    have hbound : aliasedScope.registry.referenceBound ≤ aliasedScope.options.maxPasses := by
      decide +kernel
    exact Nat.le_trans (Scope.depth_lt_referenceBound aliased) hbound
  obtain ⟨_, hends, hmore⟩ := inlineReferences_ends aliasedScope aliased
  obtain ⟨tree, passes, h, _, hfew⟩ | ⟨e, h, _⟩ := hends hdepth
  · exact ⟨tree, passes, h, hfew, hmore tree passes 100 h (by decide)⟩
  · rw [h] at hok
    cases hok

end Schema

end SchemaCatalog
