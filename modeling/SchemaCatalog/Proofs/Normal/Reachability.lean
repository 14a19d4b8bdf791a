import SchemaCatalog.Proofs.Schema.Merging
import SchemaCatalog.Proofs.Schema.Nodes
import SchemaCatalog.Normal.References
import Mathlib.Data.List.Chain
import Mathlib.Data.List.Perm.Subperm

namespace SchemaCatalog

namespace Registry

variable {registry : Registry}

theorem within_of_entry {table : Option (Entries Schema)} {segment : String} {s : Schema}
    (h : entry? table segment = some s) :
    ∃ entries key, table = some entries ∧ (key, s) ∈ entries := by
  unfold entry? at h
  cases table with
  | none => cases h
  | some entries => exact ⟨entries, _, rfl, mem_of_lookup h⟩

theorem within_of_pointee {document s : Schema} {segments : List String}
    (h : pointee? document segments = some s) : s.Within document := by
  have hdefinition {segment : String} (h : entry? document.definitions segment = some s) :
      s.Within document := by
    obtain ⟨entries, key, ht, hs⟩ := within_of_entry h
    exact (Schema.Within.refl s).child (.definition ht hs)
  unfold pointee? at h
  split at h
  · cases h
    exact .refl _
  · cases h
    exact .refl _
  · exact hdefinition h
  · exact hdefinition h
  · obtain ⟨entries, key, ht, hs⟩ := within_of_entry h
    exact (Schema.Within.refl s).child (.property ht hs)
  · exact hdefinition h
  · cases h

/-- What a reference denotes stands in a document, whose id is that of the reference. -/
theorem resolve_ok {text : String} {s : Schema} (h : registry.resolve text = .ok s) :
    ∃ id document, (id, document) ∈ registry.documents ∧ s.Within document ∧
      ((Reference.parse text).document = "" ∨ (Reference.parse text).document = id) := by
  unfold resolve at h
  simp only at h
  split at h
  · cases h
  · rename_i document hdocument
    split at h
    · rename_i schema hpointee
      cases h
      refine ⟨_, document, mem_of_lookup hdocument, within_of_pointee hpointee, ?_⟩
      rw [documentOf]
      split
      · rename_i hlocal
        rw [Reference.isLocal] at hlocal
        exact .inl (by simpa using hlocal)
      · exact .inr rfl
    · cases h

/-- Every reference that occurs in a document, made usable from outside in every way. -/
def mentioned (registry : Registry) : List String :=
  (registry.documents.flatMap fun (_, document) => document.references).flatMap fun reference =>
    ("" :: registry.ids).map (Reference.qualify reference)

theorem length_mentioned (registry : Registry) :
    registry.mentioned.length + 2 = registry.referenceBound := by
  simp [mentioned, referenceBound, size, ids, Entries.keys, List.length_flatMap]

end Registry

namespace Scope

variable {scope : Scope} {a b r : String}

/-- `b` is a reference in what `a` denotes. -/
def Mentions (scope : Scope) (a b : String) : Prop :=
  ∃ target, scope.registry.resolve a = .ok target ∧
    ∃ r ∈ target.references, b = Reference.qualify r (Reference.parse a).document

/-- `b` is an inlinable reference in what `a` denotes. -/
def Leads (scope : Scope) (a b : String) : Prop :=
  scope.Mentions a b ∧ scope.isInlinable b = .ok true

/-- What the reference denotes leads back to it through inlinable references. -/
def Recursive (scope : Scope) (r : String) : Prop := Relation.TransGen scope.Leads r r

theorem inlines_iff : scope.inlines r = true ↔ scope.isInlinable r = .ok true := by
  rw [inlines]
  cases scope.isInlinable r with
  | error e => simp
  | ok verdict => simp

theorem mem_successors_iff : b ∈ scope.successors a ↔ scope.Leads a b := by
  rw [successors]
  constructor
  · intro h
    split at h
    · cases h
    · rename_i target htarget
      obtain ⟨hb, hinlines⟩ := List.mem_filter.1 h
      obtain ⟨r, hr, he⟩ := List.mem_map.1 hb
      exact ⟨⟨target, htarget, r, hr, he.symm⟩, inlines_iff.1 hinlines⟩
  · intro h
    obtain ⟨⟨target, htarget, r, hr, he⟩, hinlinable⟩ := h
    rw [htarget]
    exact List.mem_filter.2 ⟨List.mem_map.2 ⟨r, hr, he.symm⟩, inlines_iff.2 hinlinable⟩

theorem Mentions.mem (h : scope.Mentions a b) : b ∈ scope.registry.mentioned := by
  obtain ⟨target, htarget, r, hr, he⟩ := h
  obtain ⟨id, document, hdocument, hwithin, hid⟩ := Registry.resolve_ok htarget
  obtain ⟨n, hn, hnr⟩ := Schema.mem_references_iff.1 hr
  have hreference : r ∈ document.references :=
    Schema.mem_references_iff.2 ⟨n, hn.trans hwithin, hnr⟩
  refine List.mem_flatMap.2 ⟨r, List.mem_flatMap.2 ⟨_, hdocument, hreference⟩, ?_⟩
  refine List.mem_map.2 ⟨_, ?_, he.symm⟩
  cases hid with
  | inl hid => exact hid ▸ List.mem_cons_self
  | inr hid => exact List.mem_cons_of_mem _ (List.mem_map.2 ⟨_, hdocument, hid.symm⟩)

/-- What the search finds is reached from the stack. -/
theorem search_sound {goal : String} {fuel : Nat} {visited stack : List String}
    (h : scope.search goal fuel visited stack = true) :
    ∃ x ∈ stack, Relation.TransGen scope.Leads x goal := by
  induction fuel generalizing visited stack with
  | zero => cases h
  | succ fuel ih =>
    cases stack with
    | nil => cases h
    | cons current stack =>
      rw [search] at h
      simp only at h
      split at h
      · rename_i hfound
        have hgoal := mem_successors_iff.1 (List.contains_iff_mem.1 hfound)
        exact ⟨current, List.mem_cons_self, .single hgoal⟩
      · obtain ⟨x, hx, hreach⟩ := ih h
        cases List.mem_append.1 hx with
        | inl hx =>
          have hfound := (List.mem_filter.1 (List.mem_eraseDups.1 hx)).1
          exact ⟨current, List.mem_cons_self, .head (mem_successors_iff.1 hfound) hreach⟩
        | inr hx => exact ⟨x, List.mem_cons_of_mem _ hx, hreach⟩

/-- Where the search has been: it knows no reference twice, only those that occur somewhere, and of
each it has looked at what comes next or is still going to. -/
structure Searched (scope : Scope) (goal : String) (visited stack : List String) : Prop where
  nodup : visited.Nodup
  mentioned : visited ⊆ scope.registry.mentioned
  closed : ∀ x, x = goal ∨ x ∈ visited →
    x ∈ stack ∨ ∀ y, scope.Leads x y → y ∈ visited ∧ y ≠ goal

theorem Searched.step {goal current : String} {visited stack : List String}
    (h : scope.Searched goal visited (current :: stack))
    (hgoal : goal ∉ scope.successors current) :
    let fresh :=
      ((scope.successors current).filter fun r => !visited.contains r).eraseDups
    scope.Searched goal (visited ++ fresh) (fresh ++ stack) := by
  intro fresh
  have hfresh {y : String} : y ∈ fresh ↔ y ∈ scope.successors current ∧ y ∉ visited := by
    simp [fresh]
  refine ⟨?_, ?_, ?_⟩
  · refine List.nodup_append.2 ⟨h.nodup, nodup_eraseDups _, fun x hx y hy he => ?_⟩
    exact (hfresh.1 hy).2 (he ▸ hx)
  · intro y hy
    cases List.mem_append.1 hy with
    | inl hy => exact h.mentioned hy
    | inr hy => exact (mem_successors_iff.1 (hfresh.1 hy).1).1.mem
  · intro x hx
    by_cases hxf : x ∈ fresh
    · exact .inl (List.mem_append_left _ hxf)
    have hx' : x = goal ∨ x ∈ visited := by
      cases hx with
      | inl hx => exact .inl hx
      | inr hx => exact (List.mem_append.1 hx).elim .inr fun h => absurd h hxf
    cases h.closed x hx' with
    | inr hclosed =>
      refine .inr fun y hy => ⟨List.mem_append_left _ (hclosed y hy).1, (hclosed y hy).2⟩
    | inl hstack =>
      cases hstack with
      | tail _ hstack => exact .inl (List.mem_append_right _ hstack)
      | head =>
        -- what was just taken from the stack: all its successors are visited from now on
        refine .inr fun y hy => ⟨?_, fun he => hgoal (he ▸ mem_successors_iff.2 hy)⟩
        by_cases hv : y ∈ visited
        · exact List.mem_append_left _ hv
        · exact List.mem_append_right _ (hfresh.2 ⟨mem_successors_iff.2 hy, hv⟩)

/-- With fuel for what is stacked and what was not met yet, a search in vain means that the goal
does not lead back to itself. -/
theorem Searched.complete {goal : String} {fuel : Nat} {visited stack : List String}
    (h : scope.Searched goal visited stack)
    (hfuel : stack.length + (scope.registry.mentioned.length - visited.length) < fuel)
    (hsearch : scope.search goal fuel visited stack = false) : ¬ scope.Recursive goal := by
  induction fuel generalizing visited stack with
  | zero => omega
  | succ fuel ih =>
    cases stack with
    | nil =>
      -- nothing waits, so what was visited is closed under `Leads` and lacks the goal
      intro hrecursive
      have hreach : ∀ y, Relation.TransGen scope.Leads goal y → y ∈ visited ∧ y ≠ goal := by
        intro y hy
        induction hy with
        | single hy => exact (h.closed _ (.inl rfl)).elim (nomatch ·) (· _ hy)
        | tail _ hy ih => exact (h.closed _ (.inr ih.1)).elim (nomatch ·) (· _ hy)
      exact (hreach goal hrecursive).2 rfl
    | cons current stack =>
      rw [search] at hsearch
      simp only at hsearch
      split at hsearch
      · cases hsearch
      · rename_i hfound
        have hstep := h.step fun hgoal => hfound (List.contains_iff_mem.2 hgoal)
        refine ih hstep ?_ hsearch
        have hlength := (hstep.nodup.subperm hstep.mentioned).length_le
        simp only [List.length_append, List.length_cons] at hfuel hlength ⊢
        omega

theorem searched_start (goal : String) : scope.Searched goal [] [goal] := by
  refine ⟨List.nodup_nil, List.nil_subset _, fun x hx => ?_⟩
  cases hx with
  | inl hx => exact .inl (List.mem_singleton.2 hx)
  | inr hx => cases hx

/-- The search decides whether a reference is recursive. -/
theorem leadsBack_iff : scope.leadsBack r = true ↔ scope.Recursive r := by
  constructor
  · intro h
    obtain ⟨x, hx, hreach⟩ := search_sound h
    rw [List.mem_singleton.1 hx] at hreach
    exact hreach
  · intro h
    cases hsearch : scope.leadsBack r with
    | true => rfl
    | false =>
      refine absurd h ((searched_start r).complete ?_ hsearch)
      have hlength := scope.registry.length_mentioned
      simp only [List.length_cons, List.length_nil]
      omega

end Scope

end SchemaCatalog
