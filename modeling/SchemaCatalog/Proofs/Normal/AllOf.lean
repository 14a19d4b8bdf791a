import SchemaCatalog.Proofs.Schema.Walk
import SchemaCatalog.Proofs.Schema.Merging
import SchemaCatalog.Normal.AllOf

namespace SchemaCatalog.Schema

section

variable {registry : Registry} {fuel : Nat} {chain : List String} {path r : String} {m : Schema}

theorem expandMember_of_closed (h : m.reference = none) :
    expandMember registry fuel chain path m = .ok m := by
  cases fuel <;> simp only [expandMember, h]

theorem expandMember_of_mem (h : m.reference = some r) (hr : r ∈ chain) :
    expandMember registry fuel chain path m = .error (.cyclicReference (chain ++ [r])) := by
  cases fuel with
  | zero => simp only [expandMember, h]
  | succ fuel => simp only [expandMember, h, if_pos (List.contains_iff_mem.2 hr)]

theorem expandMember_of_fresh (h : m.reference = some r) (hr : r ∉ chain) :
    expandMember registry (fuel + 1) chain path m = (do
      let target ← Outcome.at (registry.expand r) path
      let merged ← (target.walk (mergeNode (expandMember registry fuel (chain ++ [r]))) r).run 0
      expandMember registry fuel (chain ++ [r]) path (m.clearReference.fillAbsent merged.1)) := by
  have hfresh : ¬ chain.contains r = true := mt List.contains_iff_mem.1 hr
  simp only [expandMember, h, if_neg hfresh]

theorem expandMember_of_merged {target merged : Schema} {count : Nat} (h : m.reference = some r)
    (hr : r ∉ chain) (htarget : registry.expand r = .ok target)
    (hmerged : (target.walk (mergeNode (expandMember registry fuel (chain ++ [r]))) r).run 0 =
      .ok (merged, count)) :
    expandMember registry (fuel + 1) chain path m =
      expandMember registry fuel (chain ++ [r]) path (m.clearReference.fillAbsent merged) := by
  rw [expandMember_of_fresh h hr, Outcome.at_of_ok htarget]
  simp only [hmerged, bind, Except.bind]

/-- A member that can be expanded has no reference, or its reference is replaced by the merged
target and what this gives can be expanded. The members in the target are expanded likewise. -/
@[elab_as_elim]
theorem expandMember_induction {registry : Registry}
    {motive : (fuel : Nat) → (chain : List String) → (path : String) → (m t : Schema) →
      expandMember registry fuel chain path m = .ok t → Prop}
    (closed : ∀ fuel chain path m h, m.reference = none → motive fuel chain path m m h)
    (step : ∀ fuel chain path m t h r target merged count, m.reference = some r → r ∉ chain →
      registry.expand r = .ok target →
      (target.walk (mergeNode (expandMember registry fuel (chain ++ [r]))) r).run 0 =
        .ok (merged, count) →
      expandMember registry fuel (chain ++ [r]) path (m.clearReference.fillAbsent merged) = .ok t →
      (∀ path m t h, motive fuel (chain ++ [r]) path m t h) → motive (fuel + 1) chain path m t h)
    {fuel : Nat} {chain : List String} {path : String} {m t : Schema}
    (h : expandMember registry fuel chain path m = .ok t) : motive fuel chain path m t h := by
  induction fuel generalizing chain path m t with
  | zero =>
    cases hreference : m.reference with
    | none =>
      cases (expandMember_of_closed hreference).symm.trans h
      exact closed _ _ _ _ _ hreference
    | some r =>
      simp only [expandMember, hreference] at h
      cases h
  | succ fuel ih =>
    cases hreference : m.reference with
    | none =>
      cases (expandMember_of_closed hreference).symm.trans h
      exact closed _ _ _ _ _ hreference
    | some r =>
      by_cases hr : r ∈ chain
      · cases (expandMember_of_mem hreference hr).symm.trans h
      · have hrun := h
        rw [expandMember_of_fresh hreference hr] at hrun
        obtain ⟨target, htarget, hrun⟩ := bind_eq_ok hrun
        obtain ⟨⟨merged, count⟩, hmerged, hrun⟩ := bind_eq_ok hrun
        exact step _ _ _ _ _ _ _ _ _ _ hreference hr (Outcome.at_eq_ok htarget) hmerged hrun
          fun _ _ _ h => ih h

end

theorem combine_keeps {P : Schema → Prop}
    (hoverwrite : ∀ {s t : Schema}, P s → P t → P (s.overwriteFrom t))
    {plain : String → Schema → Outcome Schema}
    (hplain : ∀ path m t, P m → plain path m = .ok t → P t) {path : String} {i : Nat}
    {combined t : Schema} {members : List Schema} (hcombined : P combined)
    (hmembers : ∀ m ∈ members, P m) (h : combine plain path i combined members = .ok t) : P t := by
  induction members generalizing i combined with
  | nil =>
    cases h
    exact hcombined
  | cons member rest ih =>
    obtain ⟨hmember, hrest⟩ := List.forall_mem_cons.1 hmembers
    rw [combine] at h
    obtain ⟨p, hp, h⟩ := bind_eq_ok h
    exact ih (hoverwrite hcombined (hplain _ _ _ hmember hp)) hrest h

def AllOfFree (s : Schema) : Prop := ∀ n, Within n s → n.allOf = none

theorem allOfFree_iff {s : Schema} :
    AllOfFree s ↔ s.allOf = none ∧ ∀ c, Child c s → AllOfFree c := by
  constructor
  · exact fun h => ⟨h s (.refl s), fun c hc n hn => h n (hn.child hc)⟩
  · intro h n hn
    cases within_iff.1 hn with
    | inl hn => exact hn ▸ h.1
    | inr hn =>
      obtain ⟨c, hc, hn⟩ := hn
      exact h.2 c hc n hn

theorem allOfFree_empty : AllOfFree {} := by
  refine allOfFree_iff.2 ⟨rfl, fun c hc => ?_⟩
  cases hc <;> contradiction

theorem AllOfFree.clearReference {s : Schema} (h : AllOfFree s) : AllOfFree s.clearReference := by
  rw [allOfFree_iff] at h ⊢
  exact ⟨h.1, fun c hc => h.2 c (child_clearReference.1 hc)⟩

theorem AllOfFree.fillAbsent {s t : Schema} (hs : AllOfFree s) (ht : AllOfFree t) :
    AllOfFree (s.fillAbsent t) := by
  rw [allOfFree_iff] at hs ht ⊢
  refine ⟨by rw [Schema.fillAbsent, hs.1, ht.1]; rfl, fun c hc => ?_⟩
  exact (child_fillAbsent hc).elim (hs.2 c) (ht.2 c)

theorem AllOfFree.overwriteFrom {s t : Schema} (hs : AllOfFree s) (ht : AllOfFree t) :
    AllOfFree (s.overwriteFrom t) := by
  rw [allOfFree_iff] at hs ht ⊢
  refine ⟨?_, fun c hc => (child_overwriteFrom hc).elim (hs.2 c) (ht.2 c)⟩
  change t.allOf.or s.allOf = none
  rw [hs.1, ht.1]
  rfl

def KeepsFree (plain : String → Schema → Outcome Schema) : Prop :=
  ∀ path member t, AllOfFree member → plain path member = .ok t → AllOfFree t

/-- What merging has made of a node, where `count` lists were merged. -/
structure Merged (count : Nat) (s t : Schema) : Prop where
  free : AllOfFree t
  unchanged : count = 0 → s = t

theorem visits_mergeNode {plain : String → Schema → Outcome Schema} (hplain : KeepsFree plain) :
    Visits (mergeNode plain) (fun _ => True) (fun _ => True) Merged (fun _ => True) where
  below _ _ := trivial
  node := by
    intro path s t count _ _ halike
    have hchildren {c : Schema} (hc : Child c t) : AllOfFree c := by
      obtain ⟨_, _, hmerged⟩ := halike.flip.child hc
      exact hmerged.free
    unfold mergeNode
    split
    · rename_i hnone
      refine ensures_pure ⟨⟨trivial, fun _ _ h => h⟩, ?_, fun hcount => ?_⟩
      · exact allOfFree_iff.2 ⟨hnone, fun c hc => hchildren hc⟩
      · exact (halike.mono fun _ _ h => h.unchanged hcount).eq
    · rename_i members hsome
      have hmembers (m : Schema) (hm : m ∈ members) : AllOfFree m := hchildren (.allOf hsome hm)
      apply ensures_lift_bind
      · intro combined hcombine
        have hcombined := combine_keeps .overwriteFrom hplain allOfFree_empty hmembers hcombine
        have hdropped : AllOfFree { t with allOf := none } :=
          allOfFree_iff.2 ⟨rfl, fun c hc => hchildren (child_dropAllOf hc)⟩
        have hcounted (P : Prop) (h : count + 1 = 0) : P := absurd h (Nat.succ_ne_zero count)
        apply ensures_modify_bind
        exact ensures_pure ⟨⟨trivial, fun _ _ h => ⟨h.free, hcounted _⟩⟩,
          hdropped.fillAbsent hcombined, hcounted _⟩
      · intro _ _
        trivial

theorem keepsFree_expandMember (registry : Registry) (fuel : Nat) (chain : List String) :
    KeepsFree (expandMember registry fuel chain) := by
  intro path m t hm h
  induction h using expandMember_induction with
  | closed => exact hm
  | step fuel chain path m t h r target merged count _ _ _ hmerged hrest ih =>
    have hplain : KeepsFree (expandMember registry fuel (chain ++ [r])) :=
      fun _ _ _ hm h => ih _ _ _ h hm
    have hwalk := (visits_mergeNode hplain).walk r target 0 trivial trivial
    have hfree := (hwalk.of_ok hmerged).2.free
    exact ih _ _ _ hrest (hm.clearReference.fillAbsent hfree)

theorem mergeAllOf_merged {registry : Registry} {root t : Schema} {count : Nat}
    (h : root.mergeAllOf registry = .ok (t, count)) : Merged count root t := by
  have hvisits := visits_mergeNode (keepsFree_expandMember registry
    (root.references.length + registry.referenceBound) [])
  exact ((hvisits.walk "#" root 0 trivial trivial).of_ok h).2

end SchemaCatalog.Schema
