import SchemaCatalog.Proofs.Normal.Idempotence
import SchemaCatalog.Proofs.Schema.Counting

namespace SchemaCatalog.Schema

variable {s t : Schema} {members leaves : List Schema}

/-- `Leaves members leaves` says that `leaves` are what is reached from the members, from left to
right, by descending through those that are choices. -/
inductive Leaves : List Schema → List Schema → Prop
  | nil : Leaves [] []
  | leaf {m : Schema} {rest after : List Schema} :
      (∀ inner, m.oneOf = some inner → inner = []) → Leaves rest after →
      Leaves (m :: rest) (m :: after)
  | descend {m : Schema} {inner below rest after : List Schema} :
      m.oneOf = some inner → inner ≠ [] → Leaves inner below → Leaves rest after →
      Leaves (m :: rest) (below ++ after)

/-- `Flattens s t` says that `t` is `s` with every choice offering its leaves, and `s` otherwise.
`f` gives what has become of the children. -/
inductive Flattens : Schema → Schema → Prop
  | plain {s : Schema} {f : Schema → Schema} : s.oneOf = none →
      (∀ c, Child c s → Flattens c (f c)) → Flattens s (s.mapChildren f)
  | choice {s : Schema} {f : Schema → Schema} {members leaves : List Schema} :
      s.oneOf = some members → Leaves members leaves →
      (∀ c, Child c { s with oneOf := some leaves } → Flattens c (f c)) →
      Flattens s (mapChildren f { s with oneOf := some leaves })

theorem isChoice_eq_false_iff :
    s.isChoice = false ↔ ∀ inner, s.oneOf = some inner → inner = [] := by
  rw [← Bool.not_eq_true, isChoice_iff]
  simp

theorem Leaves.eq_alternativesOf (h : Leaves members leaves) : leaves = alternativesOf members := by
  induction h with
  | nil => rw [alternativesOf]
  | leaf hplain _ ih =>
    rw [alternativesOf, alternatives_of_not_choice (isChoice_eq_false_iff.2 hplain), ih]
    rfl
  | descend hinner hsome _ _ ihBelow ihAfter =>
    rw [alternativesOf, alternatives_of_choice hinner hsome, ihBelow, ihAfter]

mutual

theorem leaves_alternatives : (s : Schema) → ∀ {rest after : List Schema}, Leaves rest after →
    Leaves (s :: rest) (alternatives s ++ after)
  | ⟨_, _, _, _, _, _, _, _, some (first :: members), _⟩, rest, after, hrest => by
    rw [alternatives_of_choice rfl (List.cons_ne_nil _ _)]
    exact .descend rfl (List.cons_ne_nil _ _) (leaves_alternativesOf (first :: members)) hrest
  | ⟨_, _, _, _, _, _, _, _, some [], _⟩, rest, after, hrest => by
    rw [alternatives_of_not_choice rfl]
    exact .leaf (fun inner hinner => (Option.some.inj hinner).symm) hrest
  | ⟨_, _, _, _, _, _, _, _, none, _⟩, rest, after, hrest => by
    rw [alternatives_of_not_choice rfl]
    exact .leaf nofun hrest

theorem leaves_alternativesOf : (members : List Schema) → Leaves members (alternativesOf members)
  | [] => by
    rw [alternativesOf]
    exact .nil
  | s :: rest => by
    rw [alternativesOf]
    exact leaves_alternatives s (leaves_alternativesOf rest)

end

theorem leaves_iff : Leaves members leaves ↔ leaves = alternativesOf members :=
  ⟨fun h => h.eq_alternativesOf, fun h => h ▸ leaves_alternativesOf members⟩

theorem Flattens.unique {s t u : Schema} (h : Flattens s t) (hu : Flattens s u) : t = u := by
  match h, hu with
  | .plain _ hf, .plain _ hf' => exact mapChildren_congr fun c hc => (hf c hc).unique (hf' c hc)
  | .plain hnone _, .choice hsome _ _ => cases hnone.symm.trans hsome
  | .choice hsome _ _, .plain hnone _ => cases hnone.symm.trans hsome
  | .choice hsome hleaves hf, .choice hsome' hleaves' hf' =>
    cases hsome.symm.trans hsome'
    cases (leaves_iff.1 hleaves).trans (leaves_iff.1 hleaves').symm
    exact mapChildren_congr fun c hc => (hf c hc).unique (hf' c hc)

theorem flattenOneOf_eq_rebuild (s : Schema) : s.flattenOneOf.1 = rebuild splice s := by
  have h := rewrite_splice s
  rw [rewrite_rebuild] at h
  exact (Option.some.inj h).symm

theorem flattenOneOf_eq (s : Schema) :
    s.flattenOneOf.1 = (s.mapChildren (·.flattenOneOf.1)).splice := by
  have hsame : (fun t : Schema => t.flattenOneOf.1) = rebuild splice :=
    funext flattenOneOf_eq_rebuild
  rw [hsame, flattenOneOf_eq_rebuild, rebuild_eq]

theorem isChoice_flattenOneOf (s : Schema) : s.flattenOneOf.1.isChoice = s.isChoice := by
  rw [flattenOneOf_eq, isChoice_splice]
  exact ((alike_mapChildren (R := fun _ _ => True) fun _ _ => trivial).isChoice).symm

theorem alternativesOf_map {f : Schema → Schema}
    (h : ∀ m ∈ members, alternatives (f m) = (alternatives m).map f) :
    alternativesOf (members.map f) = (alternativesOf members).map f := by
  induction members with
  | nil => simp only [alternativesOf, List.map_nil]
  | cons m rest ih =>
    rw [List.map_cons, alternativesOf, alternativesOf, List.map_append,
      h m List.mem_cons_self, ih fun m hm => h m (List.mem_cons_of_mem _ hm)]

/-- The alternatives of a flattened schema are its alternatives, flattened. -/
theorem alternatives_flattenOneOf (s : Schema) :
    alternatives s.flattenOneOf.1 = (alternatives s).map (·.flattenOneOf.1) := by
  induction s using child_induction with
  | h s ih =>
    cases hchoice : s.isChoice with
    | false =>
      rw [alternatives_of_not_choice hchoice,
        alternatives_of_not_choice ((isChoice_flattenOneOf s).trans hchoice)]
      rfl
    | true =>
      obtain ⟨members, hmembers, hsome⟩ := isChoice_iff.1 hchoice
      have hmap : alternativesOf (members.map (·.flattenOneOf.1)) =
          (alternativesOf members).map (·.flattenOneOf.1) :=
        alternativesOf_map fun m hm => ih m (.oneOf hmembers hm)
      have hlist : s.flattenOneOf.1.oneOf =
          some (alternativesOf (members.map (·.flattenOneOf.1))) := by
        rw [flattenOneOf_eq]
        simp only [splice, mapChildren, hmembers, Option.map_some]
      have hnonempty : alternativesOf (members.map (·.flattenOneOf.1)) ≠ [] := by
        rw [ne_eq, alternativesOf_eq_nil, List.map_eq_nil_iff]
        exact hsome
      rw [alternatives_of_choice hlist hnonempty, alternativesOf_alternativesOf, hmap,
        alternatives_of_choice hmembers hsome]

theorem flattenOneOf_eq_mapChildren (s : Schema) :
    s.flattenOneOf.1 = s.splice.mapChildren (·.flattenOneOf.1) := by
  rw [flattenOneOf_eq]
  cases hmembers : s.oneOf with
  | none => simp only [splice, mapChildren, hmembers, Option.map_none]
  | some members =>
    have hmap : alternativesOf (members.map (·.flattenOneOf.1)) =
        (alternativesOf members).map (·.flattenOneOf.1) :=
      alternativesOf_map fun m _ => alternatives_flattenOneOf m
    simp only [splice, mapChildren, hmembers, Option.map_some, hmap]

theorem within_of_child_splice {c : Schema} (hc : Child c s.splice) :
    ∃ d, Child d s ∧ Within c d := by
  unfold splice at hc
  cases hmembers : s.oneOf with
  | none =>
    rw [hmembers] at hc
    exact ⟨c, hc, .refl c⟩
  | some members =>
    rw [hmembers] at hc
    cases child_withOneOf hc with
    | inl hc => exact ⟨c, hc, .refl c⟩
    | inr hc =>
      obtain ⟨m, hm, hc⟩ := mem_alternativesOf.1 hc
      exact ⟨m, .oneOf hmembers hm, within_of_alternatives m c hc⟩

theorem flattens_of_splice (h : ∀ c, Child c s.splice → Flattens c c.flattenOneOf.1) :
    Flattens s s.flattenOneOf.1 := by
  rw [flattenOneOf_eq_mapChildren]
  unfold splice at h ⊢
  cases hmembers : s.oneOf with
  | none =>
    rw [hmembers] at h
    exact .plain hmembers h
  | some members =>
    rw [hmembers] at h
    exact .choice hmembers (leaves_alternativesOf members) h

theorem flattens_within (s : Schema) : ∀ n, Within n s → Flattens n n.flattenOneOf.1 := by
  induction s using child_induction with
  | h s ih =>
    intro n hn
    cases within_iff.1 hn with
    | inl hn =>
      subst hn
      apply flattens_of_splice
      intro c hc
      obtain ⟨d, hd, hc⟩ := within_of_child_splice hc
      exact ih d hd c hc
    | inr hn =>
      obtain ⟨c, hc, hn⟩ := hn
      exact ih c hc n hn

def nestsChoice (s : Schema) : Bool :=
  (s.oneOf.getD []).any isChoice

theorem any_isChoice_congr {as bs : List Schema}
    (h : List.Forall₂ (fun a b => a.isChoice = b.isChoice) as bs) :
    as.any isChoice = bs.any isChoice := by
  induction h with
  | nil => rfl
  | cons hab _ ih => rw [List.any_cons, List.any_cons, hab, ih]

theorem nestsChoice_alike (h : Alike (fun a b => a.isChoice = b.isChoice) s t) :
    s.nestsChoice = t.nestsChoice := by
  have honeOf := h.oneOf
  unfold nestsChoice
  generalize s.oneOf = as at honeOf ⊢
  generalize t.oneOf = bs at honeOf ⊢
  cases honeOf with
  | none => rfl
  | some h => exact any_isChoice_congr h

theorem tallying_flattenNode :
    Parallel (tallying nestsChoice) (fun _ node => flattenNode node) note (fun _ => True)
      (fun _ _ => True) fun a b => a.isChoice = b.isChoice where
  below _ _ := trivial
  node := by
    intro path s t t' _ _ halike
    apply tallying_note
    intro count a count' hrun
    rw [← halike.isChoice, ← nestsChoice_alike halike]
    unfold flattenNode at hrun
    unfold nestsChoice
    cases hmembers : t.oneOf with
    | none =>
      rw [hmembers] at hrun
      cases hrun
      exact ⟨⟨trivial, rfl⟩, rfl⟩
    | some members =>
      rw [hmembers] at hrun
      have hchoice : ({ t with oneOf := some (alternativesOf members) } : Schema).isChoice =
          t.isChoice := by
        have hsplice := isChoice_splice t
        rw [splice, hmembers] at hsplice
        exact hsplice
      dsimp only at hrun
      rw [Option.getD_some]
      split at hrun
      · rename_i hany
        cases hrun
        exact ⟨⟨trivial, hchoice⟩, by rw [if_pos hany]⟩
      · rename_i hany
        cases hrun
        exact ⟨⟨trivial, hchoice⟩, by rw [if_neg hany]; rfl⟩

theorem count_flattenOneOf (s : Schema) :
    s.flattenOneOf.2 = (s.nodes "#").countP (·.2.nestsChoice) :=
  count_eq_countP tallying_flattenNode (t := s.flattenOneOf.1) rfl

theorem Flat.count (h : Flat s) : s.flattenOneOf.2 = 0 := by
  rw [count_flattenOneOf, List.countP_eq_zero]
  intro e he
  have hplain := h e.2 (mem_nodes_iff.1 ⟨e.1, he⟩)
  unfold nestsChoice
  cases hmembers : e.2.oneOf with
  | none => simp
  | some members => simpa using hplain members hmembers

/-- Flattening makes of a schema what `Flattens` says, and nothing else. No alternative of the
result is a choice, the nodes whose alternatives include a choice are counted, and flattening once
more does nothing. -/
theorem flattenOneOf_flattens (s : Schema) :
    (∀ t, Flattens s t ↔ t = s.flattenOneOf.1) ∧ Flat s.flattenOneOf.1 ∧
      s.flattenOneOf.2 = (s.nodes "#").countP (·.2.nestsChoice) ∧
      s.flattenOneOf.1.flattenOneOf = (s.flattenOneOf.1, 0) := by
  have hflattens : Flattens s s.flattenOneOf.1 := flattens_within s s (.refl s)
  have hflat : Flat s.flattenOneOf.1 := flat_flattenOneOf s
  refine ⟨fun t => ⟨fun ht => ht.unique hflattens, fun ht => ht ▸ hflattens⟩, hflat,
    count_flattenOneOf s, ?_⟩
  exact Prod.ext (flattenOneOf_of_flat hflat) hflat.count

/-- A choice of a word and a choice, which has a leaf without members of its own. -/
example : (flattenOneOf { oneOf := some [.ofType "string",
    { oneOf := some [.ofType "integer", { oneOf := some [] }] }] }) =
      ({ oneOf := some [.ofType "string", .ofType "integer", { oneOf := some [] }] }, 1) := by
  rfl

end SchemaCatalog.Schema
