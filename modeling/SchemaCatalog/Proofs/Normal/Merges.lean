import SchemaCatalog.Proofs.Normal.AllOf
import SchemaCatalog.Proofs.Normal.Inlining
import SchemaCatalog.Proofs.Schema.Kept

namespace SchemaCatalog

theorem Registry.mem_mentioned {registry : Registry} {r b : String} {copy : Schema}
    (hcopy : registry.expand r = .ok copy) (hb : b ∈ copy.references) : b ∈ registry.mentioned := by
  have hmentions : ({ registry := registry } : Scope).Mentions r b :=
    Scope.mentions_of_expand hcopy hb
  exact hmentions.mem

namespace Schema

theorem Inside.expand {Q : String → Prop} {registry : Registry} {r : String} {copy : Schema}
    (hQ : ∀ x ∈ registry.mentioned, Q x) (hcopy : registry.expand r = .ok copy) : Inside Q copy :=
  fun _ hb => hQ _ (Registry.mem_mentioned hcopy hb)

variable {plain plain' : String → Schema → Outcome Schema}

/-- What a member is made into does not depend on where it stands. -/
def PathFree (plain : String → Schema → Outcome Schema) : Prop :=
  ∀ path path' member t, plain path member = .ok t → plain path' member = .ok t

theorem combine_pathFree (hplain : PathFree plain) {path : String} {i : Nat} {combined t : Schema}
    {members : List Schema} (h : combine plain path i combined members = .ok t) (path' : String)
    (i' : Nat) : combine plain path' i' combined members = .ok t := by
  induction members generalizing i i' combined with
  | nil => exact h
  | cons member rest ih =>
    rw [combine] at h ⊢
    obtain ⟨member', hmember, h⟩ := bind_eq_ok h
    rw [hplain _ _ _ _ hmember]
    exact ih h _

def mergeBy (plain : String → Schema → Outcome Schema) (node : Schema) : Option Schema :=
  match node.allOf with
  | none => some node
  | some members =>
    (combine plain "" 0 {} members).toOption.map { node with allOf := none }.fillAbsent

theorem mergeBy_eq_some {node t : Schema} :
    mergeBy plain node = some t ↔ (node.allOf = none ∧ node = t) ∨
      ∃ members combined, node.allOf = some members ∧
        combine plain "" 0 {} members = .ok combined ∧
        t = { node with allOf := none }.fillAbsent combined := by
  unfold mergeBy
  cases node.allOf with
  | none => simp
  | some members =>
    cases hcombined : combine plain "" 0 {} members with
    | error e => simp [hcombined, Except.toOption]
    | ok combined => simp [hcombined, Except.toOption, eq_comm]

theorem acts_mergeNode (hplain : PathFree plain) :
    Acts (mergeNode plain) (fun _ => True) (mergeBy plain) := by
  intro path node count _
  unfold mergeNode mergeBy
  cases node.allOf with
  | none => exact ensures_pure ⟨trivial, rfl⟩
  | some members =>
    dsimp only
    apply ensures_lift_bind
    · intro combined hcombined
      rw [combine_pathFree hplain hcombined "" 0]
      exact ensures_modify_bind (ensures_pure ⟨trivial, rfl⟩)
    · intro e he
      cases hcombined : combine plain "" 0 {} members with
      | error _ => rfl
      | ok combined =>
        have hok := combine_pathFree hplain hcombined s!"{path}/allOf" 0
        cases he.symm.trans hok

theorem keepsEntries_mergeBy : KeepsEntries (mergeBy plain) := by
  intro s t h place key c hc
  obtain ⟨_, heq⟩ | ⟨_, combined, _, _, heq⟩ := mergeBy_eq_some.1 h
  · exact heq ▸ hc
  · rw [heq]
    refine entry_fillAbsent combined ?_
    cases place <;> exact hc

theorem walk_mergeNode_iff (hplain : PathFree plain) {s t : Schema} {path : String} {count : Nat} :
    (∃ count', (walk (mergeNode plain) path s).run count = .ok (t, count')) ↔
      rewrite (mergeBy plain) s = some t := by
  obtain ⟨u, count', hrun, _, hu⟩ | ⟨e, hrun, hnone⟩ :=
    ((acts_mergeNode hplain).walk path s trivial).cases
  · change (walk (mergeNode plain) path s).run count = .ok (u, count') at hrun
    rw [hrun, hu]
    simp [eq_comm]
  · change (walk (mergeNode plain) path s).run count = .error e at hrun
    rw [hrun, hnone]
    simp

theorem pathFree_expandMember (registry : Registry) (fuel : Nat) (chain : List String) :
    PathFree (expandMember registry fuel chain) := by
  intro path path' m t h
  induction h using expandMember_induction generalizing path' with
  | closed _ _ _ m _ hnone => exact expandMember_of_closed hnone
  | step fuel chain path m t h r target merged count hr hfresh htarget hmerged hrest ih =>
    rw [expandMember_of_merged hr hfresh htarget hmerged]
    exact ih _ _ _ hrest _

section

variable {P : Schema → Prop}

def Keeps (P : Schema → Prop) (plain : String → Schema → Outcome Schema) : Prop :=
  ∀ path member t, P member → plain path member = .ok t → P t

theorem kept_mergeBy (hP : Kept P) (hplain : Keeps P plain) {s t : Schema} (hs : P s)
    (h : mergeBy plain s = some t) : P t := by
  obtain ⟨_, heq⟩ | ⟨members, combined, hmembers, hcombined, heq⟩ := mergeBy_eq_some.1 h
  · exact heq ▸ hs
  · rw [heq]
    refine hP.fillAbsent (hP.dropAllOf hs)
      (combine_keeps hP.overwriteFrom hplain hP.empty (fun m hm => ?_) hcombined)
    exact hP.below hs (.allOf hmembers hm)

theorem keeps_expandMember (hP : Kept P) {registry : Registry}
    (hcopies : ∀ r copy, registry.expand r = .ok copy → P copy) (fuel : Nat)
    (chain : List String) : Keeps P (expandMember registry fuel chain) := by
  intro path m t hm h
  induction h using expandMember_induction with
  | closed => exact hm
  | step fuel chain path m t h r target merged count _ _ htarget hmerged hrest ih =>
    have hrewrite := (walk_mergeNode_iff (pathFree_expandMember _ _ _)).1 ⟨count, hmerged⟩
    have hplain : Keeps P (expandMember registry fuel (chain ++ [r])) :=
      fun _ _ _ hm h => ih _ _ _ h hm
    have hkept : P merged := rewrite_keeps hP.toInherited (fun _ _ => kept_mergeBy hP hplain)
      (hcopies _ _ htarget) hrewrite
    exact ih _ _ _ hrest (hP.fillAbsent (hP.clearReference hm) hkept)

theorem mergeBy_agrees (hP : Kept P) (hplain : ∀ path member t, P member →
      plain path member = .ok t → plain' path member = .ok t)
    {s t : Schema} (hs : P s) (h : mergeBy plain s = some t) :
    mergeBy plain' s = some t := by
  have hcombine {path : String} {i : Nat} {combined t : Schema} {members : List Schema}
      (hmembers : ∀ m ∈ members, P m) (h : combine plain path i combined members = .ok t) :
      combine plain' path i combined members = .ok t := by
    induction members generalizing i combined with
    | nil => exact h
    | cons member rest ih =>
      rw [combine] at h ⊢
      obtain ⟨member', hmember, h⟩ := bind_eq_ok h
      rw [hplain _ _ _ (hmembers member List.mem_cons_self) hmember]
      exact ih (fun m hm => hmembers m (List.mem_cons_of_mem _ hm)) h
  rw [mergeBy_eq_some] at h ⊢
  refine h.imp_right fun h => ?_
  obtain ⟨members, combined, hmembers, hcombined, heq⟩ := h
  exact ⟨members, combined, hmembers,
    hcombine (fun m hm => hP.below hs (.allOf hmembers hm)) hcombined, heq⟩

theorem rewrite_mergeBy_agrees (hP : Kept P) (hkeeps : Keeps P plain)
    (hplain : ∀ path member t, P member → plain path member = .ok t →
      plain' path member = .ok t)
    {s t : Schema} (hs : P s) (h : rewrite (mergeBy plain) s = some t) :
    rewrite (mergeBy plain') s = some t ∧ P t :=
  rewrite_agrees hP.toInherited
    (fun _ _ hn hu => ⟨mergeBy_agrees hP hplain hn hu, kept_mergeBy hP hkeeps hn hu⟩) hs h

end

theorem fuel_of_fresh {known chain : List String} {r : String} {fuel : Nat}
    (hnodup : chain.Nodup) (hchain : chain ⊆ known) (hfresh : r ∉ chain) (hr : r ∈ known)
    (hfuel : known.length ≤ fuel + chain.length) :
    (chain ++ [r]).Nodup ∧ chain ++ [r] ⊆ known ∧
      ∃ rest, fuel = rest + 1 ∧ known.length ≤ rest + (chain ++ [r]).length := by
  have hnodup' : (chain ++ [r]).Nodup := by
    refine List.nodup_append.2 ⟨hnodup, by simp, fun x hx y hy he => ?_⟩
    rw [List.mem_singleton.1 hy] at he
    exact hfresh (he ▸ hx)
  have hchain' : chain ++ [r] ⊆ known := List.append_subset.2 ⟨hchain, by simpa using hr⟩
  have hlength := (hnodup'.subperm hchain').length_le
  rw [List.length_append, List.length_singleton] at hlength
  refine ⟨hnodup', hchain', fuel - 1, by omega, ?_⟩
  rw [List.length_append, List.length_singleton]
  omega

/-- A member is expanded alike with any fuel that is enough for the references that are not being
replaced already. -/
theorem expandMember_agrees {registry : Registry} {known : List String}
    (hknown : ∀ x ∈ registry.mentioned, x ∈ known) {more fuel : Nat} {chain : List String}
    {path : String} {member t : Schema} (hnodup : chain.Nodup) (hchain : chain ⊆ known)
    (hmember : Inside (· ∈ known) member) (hfuel : known.length ≤ fuel + chain.length)
    (h : expandMember registry more chain path member = .ok t) :
    expandMember registry fuel chain path member = .ok t := by
  induction h using expandMember_induction generalizing fuel with
  | closed _ _ _ m _ hnone => exact expandMember_of_closed hnone
  | step more chain path m t h r target merged count hr hfresh htarget hmerged hnext ih =>
    obtain ⟨hnodup', hchain', rest, hrest, hfuel'⟩ :=
      fuel_of_fresh hnodup hchain hfresh (hmember.reference hr) hfuel
    subst hrest
    have hrewrite := (walk_mergeNode_iff (pathFree_expandMember _ _ _)).1 ⟨count, hmerged⟩
    obtain ⟨hrewrite', hinside⟩ := rewrite_mergeBy_agrees (kept_inside _)
      (keeps_expandMember (kept_inside _) (fun _ _ => .expand hknown) more (chain ++ [r]))
      (fun _ _ _ hm h => ih _ _ _ h hnodup' hchain' hm hfuel')
      (.expand hknown htarget) hrewrite
    have hwalk : ∃ count', (walk (mergeNode (expandMember registry rest (chain ++ [r]))) r
        target).run 0 = .ok (merged, count') :=
      (walk_mergeNode_iff (pathFree_expandMember _ _ _)).2 hrewrite'
    obtain ⟨count', hmerged'⟩ := hwalk
    have hfilled := (kept_inside (· ∈ known)).fillAbsent
      ((kept_inside _).clearReference hmember) hinside
    rw [expandMember_of_merged hr hfresh htarget hmerged']
    exact ih _ _ _ hnext hnodup' hchain' hfilled hfuel'

/-- Merging with some fuel makes `t` of the schema. -/
def Merges (registry : Registry) (s t : Schema) : Prop :=
  ∃ fuel, rewrite (mergeBy (expandMember registry fuel [])) s = some t

variable {registry : Registry} {s t : Schema}

/-- The fuel of merging suffices. -/
theorem mergeAllOf_eq_ok_iff :
    (∃ count, s.mergeAllOf registry = .ok (t, count)) ↔ Merges registry s t := by
  rw [mergeAllOf]
  simp only [walk_mergeNode_iff (pathFree_expandMember registry _ [])]
  refine ⟨fun h => ⟨_, h⟩, fun h => ?_⟩
  obtain ⟨fuel, h⟩ := h
  have hknown : ∀ x ∈ registry.mentioned, x ∈ s.references ++ registry.mentioned :=
    fun x hx => List.mem_append_right _ hx
  have hfuel : (s.references ++ registry.mentioned).length ≤
      s.references.length + registry.referenceBound + ([] : List String).length := by
    rw [List.length_append, ← registry.length_mentioned, List.length_nil]
    omega
  exact (rewrite_mergeBy_agrees (kept_inside (· ∈ s.references ++ registry.mentioned))
    (keeps_expandMember (kept_inside _) (fun _ _ => .expand hknown) fuel [])
    (fun _ _ _ hm hmember => expandMember_agrees hknown List.nodup_nil (List.nil_subset _) hm hfuel
      hmember)
    (fun r hr => List.mem_append_left registry.mentioned hr) h).1

theorem Merges.entry {place : Table} {key : String} {c : Schema} (h : Merges registry s t)
    (hc : s.under? place key = some c) :
    ∃ c', Merges registry c c' ∧ t.under? place key = some c' := by
  obtain ⟨fuel, h⟩ := h
  obtain ⟨c', hc', ht⟩ := rewrite_entry keepsEntries_mergeBy h hc
  exact ⟨c', ⟨fuel, hc'⟩, ht⟩

theorem Merges.kept {P : Schema → Prop} (hP : Kept P)
    (hcopies : ∀ r copy, registry.expand r = .ok copy → P copy) (h : Merges registry s t)
    (hs : P s) : P t := by
  obtain ⟨fuel, h⟩ := h
  exact rewrite_keeps hP.toInherited
    (fun _ _ => kept_mergeBy hP (keeps_expandMember hP hcopies fuel [])) hs h

end Schema

end SchemaCatalog
