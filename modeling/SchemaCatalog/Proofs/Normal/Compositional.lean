import SchemaCatalog.Proofs.Schema.Children
import SchemaCatalog.Proofs.Normal.Revealed
import SchemaCatalog.Proofs.Normal.Settling
import SchemaCatalog.Proofs.Normal.Merges

namespace SchemaCatalog

namespace Schema

variable {scope : Scope} {root normal s t : Schema}

theorem acts_flattenNode :
    Acts (fun _ node => flattenNode node) (fun _ : Nat => True) fun node => some node.splice := by
  intro path node count _
  dsimp only
  unfold flattenNode splice
  cases node.oneOf with
  | none => exact ensures_pure ⟨trivial, rfl⟩
  | some members =>
    dsimp only
    split
    · exact ⟨trivial, rfl⟩
    · exact ⟨trivial, rfl⟩

theorem rewrite_splice (s : Schema) :
    rewrite (fun node => some node.splice) s = some s.flattenOneOf.1 := by
  have hrun : Runs.outcome (walk (fun _ node => flattenNode node) "#" s) 0 = .ok s.flattenOneOf :=
    rfl
  exact acts_flattenNode.of_ok trivial hrun

theorem keepsEntries_splice : KeepsEntries fun node => some node.splice := by
  intro s t h place key c hc
  cases h
  unfold splice
  cases s.oneOf with
  | none => exact hc
  | some members =>
    cases place <;> exact hc

/-- The stages that lead from a schema to its normal form: its references settle, its lists are
merged, what this brought in settles, and choices are flattened. -/
structure Stages (scope : Scope) (root normal : Schema) where
  expanded : Schema
  merged : Schema
  tree : Schema
  settles : ∃ n < scope.options.maxPasses, scope.Settles n root expanded
  merges : Merges scope.registry expanded merged
  settlesAgain : ∃ n < scope.options.maxPasses, scope.Settles n merged tree
  flattens : tree.flattenOneOf.1 = normal

/-- A schema has a normal form if and only if the stages lead to it. -/
theorem normalize_eq_ok_iff :
    root.normalize scope = .ok normal ↔ Nonempty (Stages scope root normal) := by
  unfold normalize
  constructor
  · intro h
    obtain ⟨⟨expanded, passes⟩, hexpanded, h⟩ := bind_eq_ok h
    obtain ⟨⟨merged, count⟩, hmerged, h⟩ := bind_eq_ok h
    have hsettles := inlineReferences_eq_ok_iff.1 ⟨passes, hexpanded⟩
    have hmerges := mergeAllOf_eq_ok_iff.1 ⟨count, hmerged⟩
    dsimp only at h
    split at h
    · obtain ⟨⟨tree, passes'⟩, hagain, h⟩ := bind_eq_ok h
      cases h
      have hsettlesAgain := inlineReferences_eq_ok_iff.1 ⟨passes', hagain⟩
      exact ⟨⟨expanded, merged, tree, hsettles, hmerges, hsettlesAgain, rfl⟩⟩
    · rename_i hnone
      cases h
      -- nothing was merged, so all references still stay
      have heq := (mergeAllOf_merged hmerged).unchanged (Nat.eq_zero_of_not_pos hnone)
      obtain ⟨n, hn, hsettled⟩ := hsettles
      have hagain : scope.Settles 0 merged merged := ⟨rfl, heq ▸ hsettled.stays⟩
      exact ⟨⟨expanded, merged, merged, ⟨n, hn, hsettled⟩, hmerges,
        ⟨0, Nat.zero_lt_of_lt hn, hagain⟩, rfl⟩⟩
  · intro h
    obtain ⟨expanded, merged, tree, hsettles, hmerges, hagain, hflattens⟩ := h
    obtain ⟨passes, hexpanded⟩ := inlineReferences_eq_ok_iff.2 hsettles
    obtain ⟨count, hmerged⟩ := mergeAllOf_eq_ok_iff.2 hmerges
    simp only [hexpanded, hmerged, bind, Except.bind]
    split
    · obtain ⟨passes', htree⟩ := inlineReferences_eq_ok_iff.2 hagain
      simp only [htree]
      exact congrArg Except.ok hflattens
    · rename_i hnone
      have heq := (mergeAllOf_merged hmerged).unchanged (Nat.eq_zero_of_not_pos hnone)
      obtain ⟨n, _, hsettled⟩ := hsettles
      obtain ⟨m, _, hsettledAgain⟩ := hagain
      have htree := hsettledAgain.eq_of_stays (heq ▸ hsettled.stays)
      rw [← hflattens, htree]
      rfl

theorem Stages.entry {place : Table} {key : String} {c : Schema}
    (h : Stages scope root normal) (hc : root.under? place key = some c) :
    ∃ c', Nonempty (Stages scope c c') ∧ normal.under? place key = some c' := by
  obtain ⟨expanded, merged, tree, ⟨n, hn, hsettles⟩, hmerges, ⟨m, hm, hagain⟩, hflattens⟩ := h
  obtain ⟨c₁, hsettles₁, hc₁⟩ := hsettles.entry hc
  obtain ⟨c₂, hmerges₂, hc₂⟩ := hmerges.entry hc₁
  obtain ⟨c₃, hsettles₃, hc₃⟩ := hagain.entry hc₂
  obtain ⟨c', hflat, hc'⟩ := rewrite_entry keepsEntries_splice (rewrite_splice tree) hc₃
  have hflattens' : c₃.flattenOneOf.1 = c' := by
    rw [rewrite_splice] at hflat
    exact Option.some.inj hflat
  refine ⟨c', ⟨⟨c₁, c₂, c₃, ⟨n, hn, hsettles₁⟩, hmerges₂, ⟨m, hm, hsettles₃⟩, hflattens'⟩⟩, ?_⟩
  rw [← hflattens]
  exact hc'

section

variable {P : Schema → Prop}

theorem kept_settleNode (hP : Kept P)
    (hcopies : ∀ r copy, scope.registry.expand r = .ok copy → P copy) {fuel : Nat} (hs : P s)
    (h : settleNode scope fuel s = some t) : P t := by
  induction fuel generalizing s with
  | zero =>
    cases h
    exact hs
  | succ fuel ih =>
    unfold settleNode at h
    split at h
    · cases h
      exact hs
    · obtain ⟨inlinable, _, h⟩ := Option.bind_eq_some_iff.1 h
      split at h
      · cases h
        exact hs
      · obtain ⟨recursive, _, h⟩ := Option.bind_eq_some_iff.1 h
        split at h
        · cases h
          exact hs
        · obtain ⟨copy, hcopy, h⟩ := Option.bind_eq_some_iff.1 h
          have hexpand := hcopies _ _ (eq_ok_of_toOption hcopy)
          exact ih (hP.fillAbsent (hP.clearReference hs) hexpand) h

theorem kept_settles (hP : Kept P)
    (hcopies : ∀ r copy, scope.registry.expand r = .ok copy → P copy) {n : Nat} (hs : P s)
    (h : scope.Settles n s t) : P t := by
  induction n generalizing s with
  | zero => exact h.1 ▸ hs
  | succ n ih =>
    obtain ⟨u, hu, h⟩ := h
    exact ih (rewrite_keeps hP.toInherited (fun _ _ => kept_settleNode hP hcopies) hs hu) h

theorem within_of_alternatives (s : Schema) : ∀ a ∈ alternatives s, Within a s := by
  induction s using child_induction with
  | h s ih =>
    intro a ha
    by_cases hchoice : s.isChoice = true
    · obtain ⟨members, hmembers, hsome⟩ := isChoice_iff.1 hchoice
      rw [alternatives_of_choice hmembers hsome] at ha
      obtain ⟨m, hm, ha⟩ := mem_alternativesOf.1 ha
      have hchild : Child m s := .oneOf hmembers hm
      exact (ih m hchild a ha).child hchild
    · rw [alternatives_of_not_choice (Bool.eq_false_iff.2 hchoice)] at ha
      rw [List.mem_singleton.1 ha]
      exact .refl s

theorem Kept.splice (hP : Kept P) (h : P s) : P s.splice := by
  unfold Schema.splice
  cases hmembers : s.oneOf with
  | none => exact h
  | some members =>
    refine hP.withOneOf h fun a ha => ?_
    obtain ⟨m, hm, ha⟩ := mem_alternativesOf.1 ha
    exact hP.toInherited.within (hP.below h (.oneOf hmembers hm)) (within_of_alternatives m a ha)

theorem Kept.flattenOneOf (hP : Kept P) (h : P s) : P s.flattenOneOf.1 := by
  have hsplice : ∀ s t : Schema, P s → some s.splice = some t → P t := by
    intro s t hs heq
    cases heq
    exact hP.splice hs
  exact rewrite_keeps hP.toInherited hsplice h (rewrite_splice s)

theorem normalize_kept (hP : Kept P)
    (hcopies : ∀ r copy, scope.registry.expand r = .ok copy → P copy)
    (h : root.normalize scope = .ok normal) (hroot : P root) : P normal := by
  obtain ⟨expanded, merged, tree, ⟨_, _, hsettles⟩, hmerges, ⟨_, _, hagain⟩, hflattens⟩ :=
    normalize_eq_ok_iff.1 h
  have hmerged := hmerges.kept hP hcopies (kept_settles hP hcopies hroot hsettles)
  exact hflattens ▸ hP.flattenOneOf (kept_settles hP hcopies hmerged hagain)

end

theorem normalize_inside {Q : String → Prop} (hQ : ∀ x ∈ scope.registry.mentioned, Q x)
    (h : root.normalize scope = .ok normal) (hroot : Inside Q root) : Inside Q normal :=
  normalize_kept (kept_inside Q) (fun _ _ => .expand hQ) h hroot

theorem normalize_stays (h : root.normalize scope = .ok normal) : Inside scope.Stays normal := by
  obtain ⟨_, _, tree, _, _, ⟨_, _, hagain⟩, hflattens⟩ := normalize_eq_ok_iff.1 h
  have htree : Inside scope.Stays tree := hagain.stays
  exact hflattens ▸ (kept_inside _).flattenOneOf htree

theorem entry_mapReferences {f : String → String} {place : Table} {key : String} {c : Schema}
    (hc : s.under? place key = some c) :
    (s.mapReferences f).under? place key = some (c.mapReferences f) := by
  have hkeeps : KeepsEntries fun node => some (renameNode f node) := by
    intro s t h place key c hc
    cases h
    unfold renameNode
    cases s.reference with
    | none => exact hc
    | some r => cases place <;> exact hc
  obtain ⟨c', hc', hunder⟩ := rewrite_entry hkeeps (rewrite_mapReferences f s) hc
  rw [rewrite_mapReferences] at hc'
  cases hc'
  exact hunder

theorem qualify_empty (s : Schema) : s.qualify "" = s :=
  mapReferences_eq_self fun r _ => by simp [Reference.qualify]

end Schema

/-- The key of the definition that the parts of a pointer lead to. -/
def Reference.definitionKey? : List String → Option String
  | ["", "definitions", key] => some (unescape key)
  | ["", "$defs", key] => some (unescape key)
  | ["", "components", "schemas", key] => some (unescape key)
  | _ => none

theorem Registry.pointee?_definition {document : Schema} {segments : List String} {key : String}
    (h : Reference.definitionKey? segments = some key) :
    pointee? document segments = document.under? .definitions key := by
  unfold Reference.definitionKey? at h
  split at h <;> first | cases h; rfl | cases h

theorem Registry.expand_local {registry : Registry} {r : String} {c : Schema}
    (hlocal : (Reference.parse r).document = "") (h : registry.resolve r = .ok c) :
    registry.expand r = .ok c := by
  rw [expand, h, hlocal]
  exact congrArg Except.ok (Schema.qualify_empty c)

theorem Registry.expand_definition {registry : Registry} {document : Schema} {r key : String}
    {c : Schema}
    (hdocument : registry.get? (documentOf (Reference.parse r)) = some document)
    (hkey : Reference.definitionKey? (Reference.parse r).segments = some key)
    (hc : document.under? .definitions key = some c) :
    registry.expand r = .ok (c.qualify (Reference.parse r).document) := by
  have hresolve : registry.resolve r = .ok c := by
    simp only [resolve, hdocument, pointee?_definition hkey, hc]
  rw [expand, hresolve]
  rfl

namespace Schema

variable {scope : Scope} {root normal : Schema}

theorem entry_normalize {place : Table} {key : String} {c : Schema}
    (h : root.normalize scope = .ok normal) (hc : root.under? place key = some c) :
    ∃ c', c.normalize scope = .ok c' ∧ normal.under? place key = some c' := by
  obtain ⟨stages⟩ := normalize_eq_ok_iff.1 h
  obtain ⟨c', hstages, hc'⟩ := stages.entry hc
  exact ⟨c', normalize_eq_ok_iff.2 hstages, hc'⟩

end Schema

end SchemaCatalog
