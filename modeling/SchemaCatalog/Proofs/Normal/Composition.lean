import SchemaCatalog.Proofs.Normal.Merges
import SchemaCatalog.Proofs.Schema.Composition
import SchemaCatalog.Proofs.Schema.Counting
import SchemaCatalog.Proofs.Schema.Children

namespace SchemaCatalog.Schema

section

variable {registry : Registry}

mutual

/-- `Composes registry s t` says that `t` is `s` with every list composed into its owner. `f` gives
the composed children, and `g` the members of a composed list with their references followed. -/
inductive Composes (registry : Registry) : Schema → Schema → Prop
  | bare {s : Schema} {f : Schema → Schema} : (∀ c, Child c s → Composes registry c (f c)) →
      s.allOf = none → Composes registry s (s.mapChildren f)
  | list {s : Schema} {f g : Schema → Schema} {members : List Schema} :
      (∀ c, Child c s → Composes registry c (f c)) → s.allOf = some members →
      (∀ m ∈ members, Follows registry (f m) (g m)) →
      Composes registry s ((s.mapChildren f).composedWith (members.map g))

/-- `Follows registry m p` says that `p` is `m` with its reference replaced by the composed target,
and so on with the reference that this brings in. -/
inductive Follows (registry : Registry) : Schema → Schema → Prop
  | done {m : Schema} : m.reference = none → Follows registry m m
  | step {m target merged p : Schema} {r : String} : m.reference = some r →
      registry.expand r = .ok target → Composes registry target merged →
      Follows registry (m.clearReference.fillAbsent merged) p → Follows registry m p

end

mutual

theorem Composes.unique {s t u : Schema} (h : Composes registry s t) (hu : Composes registry s u) :
    t = u := by
  match h, hu with
  | .bare hf _, .bare hf' _ => exact mapChildren_congr fun c hc => (hf c hc).unique (hf' c hc)
  | .bare _ hnone, .list _ hsome _ => cases hnone.symm.trans hsome
  | .list _ hsome _, .bare _ hnone => cases hnone.symm.trans hsome
  | .list hf hsome hg, .list hf' hsome' hg' =>
    cases hsome.symm.trans hsome'
    rw [mapChildren_congr fun c hc => (hf c hc).unique (hf' c hc)]
    congr 1
    apply List.map_congr_left
    intro m hm
    have hsame := (hf m (.allOf hsome hm)).unique (hf' m (.allOf hsome hm))
    exact (hg m hm).unique (hsame ▸ hg' m hm)

theorem Follows.unique {m p q : Schema} (h : Follows registry m p) (hq : Follows registry m q) :
    p = q := by
  match h, hq with
  | .done _, .done _ => rfl
  | .done hnone, .step hsome _ _ _ => cases hnone.symm.trans hsome
  | .step hsome _ _ _, .done hnone => cases hnone.symm.trans hsome
  | .step hr htarget hmerged hp, .step hr' htarget' hmerged' hq =>
    cases hr.symm.trans hr'
    cases htarget.symm.trans htarget'
    have hsame := hmerged.unique hmerged'
    subst hsame
    exact hp.unique hq

end

theorem Follows.reference {m p : Schema} (h : Follows registry m p) : p.reference = none := by
  match h with
  | .done hnone => exact hnone
  | .step _ _ _ hp => exact hp.reference

variable {plain : String → Schema → Outcome Schema} {s t : Schema}

def made (plain : String → Schema → Outcome Schema) (member : Schema) : Schema :=
  (plain "" member).toOption.getD member

theorem combine_eq_ok (hpath : PathFree plain) {path : String} {i : Nat} {combined : Schema}
    {members : List Schema} (h : combine plain path i combined members = .ok t) :
    (∀ m ∈ members, plain "" m = .ok (made plain m)) ∧
      t = (members.map (made plain)).foldl overwriteFrom combined := by
  induction members generalizing i combined with
  | nil =>
    cases h
    exact ⟨nofun, rfl⟩
  | cons member rest ih =>
    rw [combine] at h
    obtain ⟨p, hp, h⟩ := bind_eq_ok h
    have hmember := hpath _ "" _ _ hp
    have hmade : made plain member = p := by
      rw [made, hmember]
      rfl
    obtain ⟨hrest, ht⟩ := ih h
    rw [List.forall_mem_cons, List.map_cons, List.foldl_cons, hmade]
    exact ⟨⟨hmember, hrest⟩, ht⟩

theorem free_of_rewrite (hpath : PathFree plain) (hfree : KeepsFree plain)
    (h : rewrite (mergeBy plain) s = some t) : AllOfFree t := by
  have hwalk : ∃ count, (walk (mergeNode plain) "" s).run 0 = .ok (t, count) :=
    (walk_mergeNode_iff hpath).2 h
  obtain ⟨count, hwalk⟩ := hwalk
  exact (((visits_mergeNode hfree).walk "" s 0 trivial trivial).of_ok hwalk).2.free

theorem mergeBy_composed {members : List Schema} (hpath : PathFree plain) (hfree : KeepsFree plain)
    (hplain : ∀ m p, plain "" m = .ok p → Follows registry m p) (hmembers : s.allOf = some members)
    (hmembersFree : ∀ m ∈ members, AllOfFree m) (h : mergeBy plain s = some t) :
    (∀ m ∈ members, Follows registry m (made plain m)) ∧
      t = s.composedWith (members.map (made plain)) := by
  rcases mergeBy_eq_some.1 h with ⟨hnone, _⟩ | ⟨members', combined, hsome, hcombined, ht⟩
  · cases hnone.symm.trans hmembers
  · cases hsome.symm.trans hmembers
    obtain ⟨hmade, hfold⟩ := combine_eq_ok hpath hcombined
    have hfollows (m : Schema) (hm : m ∈ members) : Follows registry m (made plain m) :=
      hplain m _ (hmade m hm)
    refine ⟨hfollows, ?_⟩
    rw [ht, hfold]
    apply fillAbsent_foldl_overwriteFrom
    · intro p hp
      obtain ⟨m, hm, hp⟩ := List.mem_map.1 hp
      exact hp ▸ (hfollows m hm).reference
    · intro p hp
      obtain ⟨m, hm, hp⟩ := List.mem_map.1 hp
      have hmadeFree := hfree "" m _ (hmembersFree m hm) (hmade m hm)
      exact hp ▸ hmadeFree _ (.refl _)

theorem composes_of_rewrite (hpath : PathFree plain) (hfree : KeepsFree plain)
    (hplain : ∀ m p, plain "" m = .ok p → Follows registry m p)
    (h : rewrite (mergeBy plain) s = some t) : Composes registry s t := by
  induction s using child_induction generalizing t with
  | h s ih =>
    -- the children are rewritten first, which makes the node itself the image of a map
    obtain ⟨s', halike, hs'⟩ := exists_of_rewrite h
    let f : Schema → Schema := fun c => (rewrite (mergeBy plain) c).getD c
    have hf (c : Schema) (hc : Child c s) : rewrite (mergeBy plain) c = some (f c) := by
      obtain ⟨c', _, hc'⟩ := halike.child hc
      simp only [f, hc', Option.getD_some]
    have hchildren (c : Schema) (hc : Child c s) : Composes registry c (f c) := ih c hc (hf c hc)
    have heq : s' = s.mapChildren f := by
      have hsame : Alike (fun a b => f a = id b) s s' := by
        apply halike.mono
        intro a b hab
        exact congrArg (Option.getD · a) hab
      have hmapped := hsame.mapChildren.eq
      rw [mapChildren_id] at hmapped
      exact hmapped.symm
    subst heq
    cases hlist : s.allOf with
    | none =>
      have hnone : (s.mapChildren f).allOf = none := congrArg (Option.map (List.map f)) hlist
      have ht : s.mapChildren f = t := by
        rw [mergeBy, hnone] at hs'
        exact Option.some.inj hs'
      exact ht ▸ .bare hchildren hlist
    | some members =>
      have hsome : (s.mapChildren f).allOf = some (members.map f) :=
        congrArg (Option.map (List.map f)) hlist
      have hmembersFree (m : Schema) (hm : m ∈ members.map f) : AllOfFree m := by
        obtain ⟨c, hc, hm⟩ := List.mem_map.1 hm
        exact hm ▸ free_of_rewrite hpath hfree (hf c (.allOf hlist hc))
      obtain ⟨hfollows, ht⟩ := mergeBy_composed hpath hfree hplain hsome hmembersFree hs'
      rw [ht, List.map_map]
      apply Composes.list hchildren hlist
      intro m hm
      exact hfollows (f m) (List.mem_map_of_mem hm)

theorem follows_of_expandMember {fuel : Nat} {chain : List String} {path : String} {m p : Schema}
    (h : expandMember registry fuel chain path m = .ok p) : Follows registry m p := by
  induction h using expandMember_induction with
  | closed _ _ _ m _ hnone => exact .done hnone
  | step fuel chain path m p h r target merged count hr _ htarget hmerged hrest ih =>
    have hrewrite := (walk_mergeNode_iff (pathFree_expandMember _ _ _)).1 ⟨count, hmerged⟩
    have hcomposes : Composes registry target merged :=
      composes_of_rewrite (pathFree_expandMember _ _ _) (keepsFree_expandMember _ _ _)
        (fun _ _ h => ih _ _ _ h) hrewrite
    exact .step hr htarget hcomposes (ih _ _ _ hrest)

/-- Steps that add to a count what is added to a list of nodes among those with a list. -/
def tally : Pairing (StateT Nat Outcome) (StateM (List (String × Schema))) :=
  tallying (·.allOf.isSome)

theorem tally_mergeNode (plain : String → Schema → Outcome Schema) :
    Parallel tally (mergeNode plain) note (fun _ => True) (fun _ _ => True) fun _ _ => True where
  below _ _ := trivial
  node := by
    intro path s t t' _ _ halike
    apply tallying_note
    intro count a count' hrun
    refine ⟨⟨trivial, trivial⟩, ?_⟩
    have hlist : t.allOf.isSome = t'.allOf.isSome := optionRel_isSome halike.allOf
    rw [← hlist]
    unfold mergeNode at hrun
    cases hmembers : t.allOf with
    | none =>
      rw [hmembers] at hrun
      cases hrun
      rfl
    | some members =>
      rw [hmembers] at hrun
      cases hcombined : combine plain s!"{path}/allOf" 0 {} members with
      | error e =>
        simp only [hcombined] at hrun
        cases hrun
      | ok combined =>
        simp only [hcombined] at hrun
        cases hrun
        rfl

theorem count_mergeAllOf {count : Nat} (h : s.mergeAllOf registry = .ok (t, count)) :
    count = (s.nodes "#").countP (·.2.allOf.isSome) :=
  count_eq_countP (tally_mergeNode _) h

/-- A merge that succeeds makes of the schema what composing it makes, and nothing else, and counts
the nodes that had a list. -/
theorem mergeAllOf_composes {count : Nat} (h : s.mergeAllOf registry = .ok (t, count)) :
    count = (s.nodes "#").countP (·.2.allOf.isSome) ∧ ∀ u, Composes registry s u ↔ u = t := by
  have hmerges : Merges registry s t := mergeAllOf_eq_ok_iff.1 ⟨count, h⟩
  obtain ⟨fuel, hrewrite⟩ := hmerges
  have hcomposes : Composes registry s t :=
    composes_of_rewrite (pathFree_expandMember _ _ _) (keepsFree_expandMember _ _ _)
      (fun _ _ => follows_of_expandMember) hrewrite
  refine ⟨count_mergeAllOf h, fun u => ⟨fun hu => hu.unique hcomposes, fun heq => ?_⟩⟩
  exact heq ▸ hcomposes

def pet : Schema where
  properties := some [("id", .ofType "string")]
  allOf := some [
    { keywords := { reference := some "#/definitions/Named", title := some "Pet" } },
    { properties := some [("id", .ofType "integer"), ("age", .ofType "integer")] }]

def petDocuments : Registry where
  documents := [(Reference.rootDocument, {
    definitions := some [("Named", {
      properties := some [("name", .ofType "string")]
      allOf := some [{
        keywords := { title := some "Named" }
        properties := some [("id", .ofType "number")] }] })] })]

theorem mergeAllOf_composes_pet : ∃ t, pet.mergeAllOf petDocuments = .ok (t, 1) ∧
    t.properties.map Entries.keys = some ["id", "name", "age"] ∧ t.keywords.title = some "Pet" ∧
      1 = (pet.nodes "#").countP (·.2.allOf.isSome) ∧ ∀ u, Composes petDocuments pet u ↔ u = t := by
  have hok : (pet.mergeAllOf petDocuments).toOption.map
      (fun r => (r.2, r.1.properties.map Entries.keys, r.1.keywords.title)) =
        some (1, some ["id", "name", "age"], some "Pet") := by decide +kernel
  obtain ⟨⟨t, count⟩, hmerged, hresult⟩ := Option.map_eq_some_iff.1 hok
  simp only [Prod.mk.injEq] at hresult
  obtain ⟨hcount, hkeys, htitle⟩ := hresult
  subst hcount
  have h := eq_ok_of_toOption hmerged
  exact ⟨t, h, hkeys, htitle, mergeAllOf_composes h⟩

end

end SchemaCatalog.Schema
