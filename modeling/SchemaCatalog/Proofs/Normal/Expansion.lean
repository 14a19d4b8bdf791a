import SchemaCatalog.Proofs.Schema.Children
import SchemaCatalog.Proofs.Schema.References
import SchemaCatalog.Proofs.Normal.Passes

namespace SchemaCatalog

namespace Scope

open Schema

def expands (scope : Scope) (reference : String) : Bool :=
  scope.inlines reference && !scope.leadsBack reference

/-- A node without its reference, filled from the expansion of what that denotes, if it is one that
is replaced. -/
def expandNode (scope : Scope) (expansion : Schema → Schema) (node : Schema) : Schema :=
  match node.reference with
  | none => node
  | some reference =>
    if scope.expands reference then
      match scope.registry.expand reference with
      | .ok copy => node.clearReference.fillAbsent (expansion copy)
      | .error _ => node
    else node

/-- Expands a schema through at most `fuel` references one inside another. -/
def expandThrough (scope : Scope) : Nat → Schema → Schema
  | 0 => id
  | fuel + 1 => rebuild (scope.expandNode (expandThrough scope fuel))

/-- The schema with every reference replaced that may be inlined and is not recursive. -/
def expansion (scope : Scope) : Schema → Schema :=
  scope.expandThrough scope.registry.referenceBound

variable {scope : Scope} {f g : Schema → Schema} {s t copy : Schema} {r : String}

theorem expands_iff : scope.expands r = true ↔ scope.Expandable r := by
  rw [expands, Bool.and_eq_true, inlines_iff, Bool.not_eq_true', Expandable, ← leadsBack_iff,
    Bool.not_eq_true]

theorem Expandable.exists_copy (h : scope.Expandable r) :
    ∃ copy, scope.registry.expand r = .ok copy := by
  have hinlinable := h.1
  rw [isInlinable] at hinlinable
  split at hinlinable
  · cases hinlinable
  · obtain ⟨target, htarget, _⟩ := bind_eq_ok hinlinable
    rw [Registry.expand, htarget]
    exact ⟨_, rfl⟩

theorem expandNode_hop (hr : s.reference = some r) (h : scope.Expandable r)
    (hcopy : scope.registry.expand r = .ok copy) :
    scope.expandNode f s = s.clearReference.fillAbsent (f copy) := by
  simp only [expandNode, hr, expands_iff.2 h, if_pos, hcopy]

theorem expandNode_stays (h : ∀ r, s.reference = some r → ¬ scope.Expandable r) :
    scope.expandNode f s = s := by
  unfold expandNode
  cases hr : s.reference with
  | none => rfl
  | some r => exact if_neg (mt expands_iff.1 (h r hr))

theorem hop_or_stays (scope : Scope) (s : Schema) :
    (∃ r copy, s.reference = some r ∧ scope.Expandable r ∧ scope.registry.expand r = .ok copy) ∨
      ∀ r, s.reference = some r → ¬ scope.Expandable r := by
  by_cases h : ∃ r, s.reference = some r ∧ scope.Expandable r
  · obtain ⟨r, hr, hexpandable⟩ := h
    obtain ⟨copy, hcopy⟩ := hexpandable.exists_copy
    exact .inl ⟨r, copy, hr, hexpandable, hcopy⟩
  · exact .inr fun r hr hexpandable => h ⟨r, hr, hexpandable⟩

theorem expandNode_congr
    (h : ∀ r copy, s.reference = some r → scope.Expandable r →
      scope.registry.expand r = .ok copy → f copy = g copy) :
    scope.expandNode f s = scope.expandNode g s := by
  obtain ⟨r, copy, hr, hexpandable, hcopy⟩ | hstays := scope.hop_or_stays s
  · rw [expandNode_hop hr hexpandable hcopy, expandNode_hop hr hexpandable hcopy,
      h r copy hr hexpandable hcopy]
  · rw [expandNode_stays hstays, expandNode_stays hstays]

theorem depth_copy_lt (hr : r ∈ s.references) (h : scope.Expandable r)
    (hcopy : scope.registry.expand r = .ok copy) : scope.depth copy < scope.depth s := by
  obtain ⟨path, hpath, hlength⟩ : ∃ path, scope.Follows copy path ∧ _ := exists_follows copy
  have hlonger : scope.Follows s (r :: path) := by
    refine ⟨hpath.isPath.cons h fun x hx => ?_, fun x hx => ?_⟩
    · obtain ⟨target, htarget, he⟩ := Registry.expand_eq_ok hcopy
      obtain ⟨r', hr', hx⟩ := mem_references_mapReferences.1 (he ▸ hpath.starts x hx)
      exact ⟨target, htarget, r', hr', hx⟩
    · cases hx
      exact hr
  rw [← hlength]
  exact hlonger.length_le

theorem depth_child_le {c : Schema} (hc : Child c s) : scope.depth c ≤ scope.depth s := by
  obtain ⟨path, hpath, hlength⟩ : ∃ path, scope.Follows c path ∧ _ := exists_follows c
  rw [← hlength]
  have hstarts (x : String) (hx : x ∈ path.head?) : x ∈ s.references :=
    references_child hc (hpath.starts x hx)
  exact Follows.length_le ⟨hpath.isPath, hstarts⟩

/-- What holds of a schema whenever it holds of its children, and of the copy that its reference
brings in, holds of all schemas. -/
theorem expansion_induction {P : Schema → Prop}
    (h : ∀ s, (∀ c, Child c s → P c) →
      (∀ r copy, s.reference = some r → scope.Expandable r →
        scope.registry.expand r = .ok copy → P copy) → P s) (s : Schema) : P s := by
  induction hdepth : scope.depth s using Nat.strong_induction_on generalizing s with
  | h n ih =>
    have hle : scope.depth s ≤ n := Nat.le_of_eq hdepth
    clear hdepth
    induction s using child_induction with
    | h s ihChild =>
      refine h s (fun c hc => ihChild c hc (Nat.le_trans (depth_child_le hc) hle)) ?_
      intro r copy hr hexpandable hcopy
      have hlt := depth_copy_lt (mem_references_cases.2 (.inl hr)) hexpandable hcopy
      exact ih _ (Nat.lt_of_lt_of_le hlt hle) copy rfl

theorem expandThrough_enough {n m : Nat} (hn : scope.depth s < n) (hm : scope.depth s < m) :
    scope.expandThrough n s = scope.expandThrough m s := by
  induction n generalizing m s with
  | zero => exact absurd hn (Nat.not_lt_zero _)
  | succ n ih =>
    cases m with
    | zero => exact absurd hm (Nat.not_lt_zero _)
    | succ m =>
      refine rebuild_congr fun node hnode => expandNode_congr fun r copy hr hexpandable hcopy => ?_
      obtain ⟨n', hn', hreference⟩ := hnode
      have hmem : r ∈ s.references := mem_references_iff.2 ⟨n', hn', hreference ▸ hr⟩
      have hlt := depth_copy_lt hmem hexpandable hcopy
      exact ih (by omega) (by omega)

theorem expansion_eq (s : Schema) :
    scope.expansion s = scope.expandNode scope.expansion (s.mapChildren scope.expansion) := by
  have hbound := scope.depth_lt_referenceBound s
  unfold expansion
  generalize scope.registry.referenceBound = bound at hbound ⊢
  cases bound with
  | zero => exact absurd hbound (Nat.not_lt_zero _)
  | succ fuel =>
    change rebuild _ s = _
    rw [rebuild_eq]
    refine expandNode_congr fun r copy hr hexpandable hcopy => ?_
    have hmem : r ∈ s.references := mem_references_cases.2 (.inl hr)
    have hlt := depth_copy_lt hmem hexpandable hcopy
    exact expandThrough_enough (by omega) (by omega)

theorem expansion_unique (hf : ∀ s, f s = scope.expandNode f (s.mapChildren f)) :
    f = scope.expansion := by
  funext s
  induction s using scope.expansion_induction with
  | h s ihChild ihCopy =>
    rw [hf s, expansion_eq s, mapChildren_congr ihChild]
    exact expandNode_congr ihCopy

theorem expansion_hop (hr : s.reference = some r) (h : scope.Expandable r)
    (hcopy : scope.registry.expand r = .ok copy) :
    scope.expansion s =
      (s.mapChildren scope.expansion).clearReference.fillAbsent (scope.expansion copy) := by
  rw [expansion_eq]
  exact expandNode_hop hr h hcopy

theorem expansion_of_stays (h : Inside (fun r => ¬ scope.Expandable r) s) :
    scope.expansion s = s := by
  induction s using child_induction with
  | h s ih =>
    have hchildren : s.mapChildren scope.expansion = s :=
      (mapChildren_congr fun c hc => ih c hc (h.child hc)).trans (mapChildren_id s)
    rw [expansion_eq, hchildren]
    exact expandNode_stays fun r hr => h.reference hr

theorem fillAbsent_expandNode {base : Schema} (hbase : base.reference = none) (t : Schema) :
    base.fillAbsent (scope.expandNode f t) = scope.expandNode f (base.fillAbsent t) := by
  have hreference : (base.fillAbsent t).reference = t.reference := by
    change base.reference.or t.reference = _
    rw [hbase]
    rfl
  have hclear : base.fillAbsent t.clearReference = (base.fillAbsent t).clearReference := by
    obtain ⟨⟨_, reference⟩⟩ := base
    cases hbase
    rfl
  obtain ⟨r, copy, hr, hexpandable, hcopy⟩ | hstays := scope.hop_or_stays t
  · rw [expandNode_hop hr hexpandable hcopy, ← fillAbsent_assoc, hclear]
    exact (expandNode_hop (hreference.trans hr) hexpandable hcopy).symm
  · rw [expandNode_stays hstays, expandNode_stays fun r hr => hstays r (hreference.symm.trans hr)]

/-- The copies that a node is filled from, each brought in by the reference of the one before. -/
inductive Links (scope : Scope) : Schema → List Schema → Prop
  | nil {s : Schema} : Links scope s []
  | cons {s copy : Schema} {r : String} {rest : List Schema} : s.reference = some r →
    scope.Expandable r → scope.registry.expand r = .ok copy → Links scope copy rest →
    Links scope s (copy :: rest)

def addCopy (scope : Scope) (node copy : Schema) : Schema :=
  node.clearReference.fillAbsent (copy.mapChildren scope.expansion)

theorem fillAbsent_links {base : Schema} {copies : List Schema} (hbase : base.reference = none)
    (h : scope.Links s copies) :
    base.fillAbsent (scope.expansion s) = scope.expandNode scope.expansion
      (copies.foldl scope.addCopy (base.fillAbsent (s.mapChildren scope.expansion))) := by
  induction h generalizing base with
  | nil =>
    rw [expansion_eq, fillAbsent_expandNode hbase]
    rfl
  | @cons s copy r rest hr hexpandable hcopy _ ih =>
    have hstep : scope.addCopy (base.fillAbsent (s.mapChildren scope.expansion)) copy =
        (base.fillAbsent (s.mapChildren scope.expansion).clearReference).fillAbsent
          (copy.mapChildren scope.expansion) := by
      obtain ⟨⟨_, reference⟩⟩ := base
      cases hbase
      rfl
    have hcleared :
        (base.fillAbsent (s.mapChildren scope.expansion).clearReference).reference = none := by
      change base.reference.or none = none
      rw [hbase]
      rfl
    rw [expansion_hop hr hexpandable hcopy, ← fillAbsent_assoc, ih hcleared, List.foldl_cons, hstep]

theorem expansion_links {copies : List Schema} (h : scope.Links s copies) :
    scope.expansion s = scope.expandNode scope.expansion
      (copies.foldl scope.addCopy (s.mapChildren scope.expansion)) := by
  cases h with
  | nil => exact expansion_eq s
  | cons hr hexpandable hcopy hrest =>
    rw [expansion_hop hr hexpandable hcopy]
    exact fillAbsent_links rfl hrest

theorem expansion_fillAbsent (hr : s.reference = some r) (h : scope.Expandable r)
    (hcopy : scope.registry.expand r = .ok copy) :
    scope.expansion (s.clearReference.fillAbsent copy) = scope.expansion s := by
  rw [expansion_links (.cons hr h hcopy .nil), expansion_eq, mapChildren_fillAbsent]
  rfl

theorem respected_expansion :
    Respected scope fun s t => scope.expansion s = scope.expansion t where
  trans := Eq.trans
  alike h := by
    have hchildren : _ = _ := (Alike.mapChildren (R := Eq) h).eq
    rw [expansion_eq, hchildren, ← expansion_eq]
  unfolds h := by
    induction h with
    | stays _ => rfl
    | hop hr hexpandable hcopy _ ih =>
      exact (expansion_fillAbsent hr hexpandable hcopy).symm.trans ih

/-- What a schema holds under a key it also holds in its expansion, there expanded. -/
theorem under_expansion {place : Table} {key : String} {c : Schema}
    (hc : s.under? place key = some c) :
    (scope.expansion s).under? place key = some (scope.expansion c) := by
  have hchild : (s.mapChildren scope.expansion).under? place key = some (scope.expansion c) := by
    unfold under? at hc ⊢
    rw [table_mapChildren]
    cases htable : s.table place with
    | none =>
      rw [htable] at hc
      cases hc
    | some entries =>
      rw [htable] at hc
      exact (Entries.lookup_mapValues _ entries key).trans (congrArg (Option.map _) hc)
  rw [expansion_eq]
  obtain ⟨r, copy, hr, hexpandable, hcopy⟩ | hstays :=
    scope.hop_or_stays (s.mapChildren scope.expansion)
  · rw [expandNode_hop hr hexpandable hcopy]
    refine entry_fillAbsent _ ?_
    cases place <;> exact hchild
  · rw [expandNode_stays hstays]
    exact hchild

/-- The keys of a table come first in the expansion, in their order. -/
theorem keys_expansion (s : Schema) (place : Table) :
    Entries.keys ((s.table place).getD []) <+:
      Entries.keys (((scope.expansion s).table place).getD []) := by
  have hchildren : Entries.keys (((s.mapChildren scope.expansion).table place).getD []) =
      Entries.keys ((s.table place).getD []) := by
    rw [table_mapChildren]
    cases s.table place with
    | none => rfl
    | some entries => exact List.map_map
  rw [← hchildren, expansion_eq]
  obtain ⟨r, copy, hr, hexpandable, hcopy⟩ | hstays :=
    scope.hop_or_stays (s.mapChildren scope.expansion)
  · rw [expandNode_hop hr hexpandable hcopy, table_fillAbsent]
    have htable : (s.mapChildren scope.expansion).clearReference.table place =
        (s.mapChildren scope.expansion).table place := by
      cases place <;> rfl
    rw [htable]
    cases (scope.expansion copy).table place with
    | none => exact List.prefix_refl _
    | some new => exact (Entries.prefix_addMissing _ new).map Prod.fst
  · rw [expandNode_stays hstays]

end Scope

namespace Schema

open Scope

/-- Where inlining succeeds, it gives the expansion of the schema, which is the one function that
expands all children of a node and then fills the node from the expansion of a copy of what its
reference denotes. So the keys of a node come before those brought in and keep their values, and
along a chain of references the copies add up in order. -/
theorem inlineReferences_expansion (scope : Scope) :
    (∀ root tree passes, root.inlineReferences scope = .ok (tree, passes) →
      tree = scope.expansion root) ∧
    (∀ f : Schema → Schema,
      (∀ s, f s = scope.expandNode f (s.mapChildren f)) ↔ f = scope.expansion) ∧
    (∀ s place, Entries.keys ((s.table place).getD []) <+:
      Entries.keys (((scope.expansion s).table place).getD [])) ∧
    (∀ s place key c, s.under? place key = some c →
      (scope.expansion s).under? place key = some (scope.expansion c)) ∧
    ∀ s copies, scope.Links s copies → scope.expansion s = scope.expandNode scope.expansion
      (copies.foldl scope.addCopy (s.mapChildren scope.expansion)) := by
  refine ⟨fun root tree passes h => ?_, fun f => ⟨expansion_unique, ?_⟩, keys_expansion,
    fun _ _ _ _ => under_expansion, fun _ _ => expansion_links⟩
  · have hstays : Inside (fun r => ¬ scope.Expandable r) tree := fun r hr =>
      ((inlineFrom_stays Scope.known_nil h).1 r hr).not_expandable
    have hsame := respected_expansion.inlineFrom Scope.known_nil h
    rw [hsame, expansion_of_stays hstays]
  · intro hf
    subst hf
    exact expansion_eq

theorem inlineReferences_expansion_aliased :
    aliased.inlineReferences aliasedScope = .ok (aliasedScope.expansion aliased, 2) ∧
      ∃ name, (aliasedScope.expansion aliased).under? .definitions "Name" = some name ∧
        name.reference = none ∧ name.typeName? = some "string" := by
  obtain ⟨hpasses, _, _, hunder, _⟩ := inlineReferences_expansion aliasedScope
  refine ⟨?_, _, hunder aliased .definitions "Name" _ rfl, by decide +kernel, by decide +kernel⟩
  have htwo : (aliased.inlineReferences aliasedScope).toOption.map Prod.snd = some 2 := by
    decide +kernel
  cases h : aliased.inlineReferences aliasedScope with
  | error e =>
    rw [h] at htwo
    cases htwo
  | ok result =>
    obtain ⟨tree, passes⟩ := result
    rw [h] at htwo
    cases htwo
    rw [hpasses aliased tree 2 h]

end Schema

end SchemaCatalog
