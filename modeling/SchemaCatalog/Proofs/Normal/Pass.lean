import SchemaCatalog.Proofs.Normal.Inlining

namespace SchemaCatalog

namespace Scope

variable {scope : Scope} {a b r : String}

theorem Path.nodup {path : List String} (h : scope.Path path) : path.Nodup := by
  have hchain : path.IsChain (Relation.TransGen scope.Leads) :=
    h.mentions.imp_of_mem_imp fun a b _ hb hab => .single ⟨hab, (h.expandable b hb).1⟩
  refine (List.isChain_iff_pairwise.1 hchain).imp_of_mem fun {a b} ha _ hab he => ?_
  subst he
  exact (h.expandable a ha).2 hab

/-- Every reference of a path but the first occurs in a document. -/
theorem Path.length_lt {path : List String} (h : scope.Path path) :
    path.length < scope.registry.referenceBound := by
  have hbound := scope.registry.length_mentioned
  cases path with
  | nil => simp only [List.length_nil]; omega
  | cons r rest =>
    -- the first reference may stand in the schema itself, so only the others are counted
    have hmentioned : rest ⊆ scope.registry.mentioned := by
      intro x hx
      have hchain := h.mentions
      clear h hbound
      induction rest generalizing r with
      | nil => cases hx
      | cons y rest ih =>
        rw [List.isChain_cons_cons] at hchain
        cases hx with
        | head => exact hchain.1.mem
        | tail _ hx => exact ih y hx hchain.2
    have hlength := ((List.nodup_cons.1 h.nodup).2.subperm hmentioned).length_le
    simp only [List.length_cons]
    omega

/-- `b` is met where `a` is replaced, or where a reference met there is, and so on. -/
def Descends (scope : Scope) : String → String → Prop :=
  Relation.TransGen fun a b => scope.Expandable a ∧ scope.Mentions a b

theorem Descends.path {path : List String} (h : scope.Descends a b)
    (hpath : scope.Path (b :: path)) :
    ∃ middle, scope.Path (a :: (middle ++ b :: path)) := by
  induction h using Relation.TransGen.head_induction_on with
  | single h => exact ⟨[], hpath.cons h.1 fun x hx => by cases hx; exact h.2⟩
  | @head a c h _ ih =>
    obtain ⟨middle, hmiddle⟩ := ih
    exact ⟨c :: middle, hmiddle.cons h.1 fun x hx => by cases hx; exact h.2⟩

/-- Every reference of `t` stays or descends from one of `s`. -/
def Inherits (scope : Scope) (s t : Schema) : Prop :=
  ∀ b ∈ t.references, scope.Stays b ∨ ∃ a ∈ s.references, scope.Descends a b

theorem Unfolds.references {s t : Schema} {new : List String} (h : scope.Unfolds s new t)
    (hb : b ∈ t.references) :
    scope.Stays b ∨ (∃ c, Schema.Child c s ∧ b ∈ c.references) ∨
      ∃ a, s.reference = some a ∧ scope.Descends a b := by
  induction h with
  | stays hstays =>
    cases Schema.mem_references_cases.1 hb with
    | inl hb => exact .inl (hstays b hb)
    | inr hb => exact .inr (.inl hb)
  | @hop s r copy _ _ hr hexpandable hcopy _ ih =>
    obtain hstays | ⟨c, hc, hbc⟩ | ⟨a, ha, hab⟩ := ih hb
    · exact .inl hstays
    · cases Schema.child_fillAbsent hc with
      | inl hc => exact .inr (.inl ⟨c, Schema.child_clearReference.1 hc, hbc⟩)
      | inr hc =>
        have hmentions := mentions_of_expand hcopy (Schema.references_child hc hbc)
        exact .inr (.inr ⟨r, hr, .single ⟨hexpandable, hmentions⟩⟩)
    · exact .inr (.inr ⟨r, hr, .head ⟨hexpandable, mentions_of_hop hcopy ha⟩ hab⟩)

theorem Unfolds.nil {s t : Schema} (h : scope.Unfolds s [] t) :
    t = s ∧ ∀ r, s.reference = some r → scope.Stays r := by
  cases h with
  | stays h => exact ⟨rfl, h⟩

theorem Unfolds.cons {s t : Schema} {rest : List String} (h : scope.Unfolds s (r :: rest) t) :
    s.reference = some r ∧ scope.Expandable r := by
  cases h with
  | hop hr hexpandable _ _ => exact ⟨hr, hexpandable⟩

end Scope

namespace Schema

variable {scope : Scope}

theorem references_within {r : String} {n s : Schema} (hn : Within n s) (h : r ∈ n.references) :
    r ∈ s.references := by
  obtain ⟨n', hn', hr⟩ := mem_references_iff.1 h
  exact mem_references_iff.2 ⟨n', hn'.trans hn, hr⟩

/-- What a pass knows and has done: its verdicts are right, and it replaced a reference only if the
schema has one to replace. -/
structure Passing (scope : Scope) (root : Schema) (st : InlineState) : Prop where
  known : scope.Known st.known
  expandable : st.inlined ≠ [] → ∃ r ∈ root.references, scope.Expandable r

/-- What has become of a schema: if nothing was replaced it is as it was and its references stay. -/
structure Passed (scope : Scope) (st : InlineState) (s t : Schema) : Prop where
  unchanged : st.inlined = [] → s = t ∧ ∀ r ∈ s.references, scope.Stays r
  inherits : scope.Inherits s t

theorem Passed.unfold {scope : Scope} {st st' : InlineState} {s s' t : Schema}
    {new : List String} (halike : Alike (Passed scope st) s s') (h : scope.Unfolds s' new t)
    (hnew : st'.inlined = st.inlined ++ new) : Passed scope st' s t := by
  refine ⟨fun hnone => ?_, fun b hb => ?_⟩
  · rw [hnew, List.append_eq_nil_iff] at hnone
    obtain ⟨hst, hnil⟩ := hnone
    subst hnil
    obtain ⟨ht, hstays⟩ := h.nil
    subst ht
    refine ⟨(halike.mono fun _ _ h => (h.unchanged hst).1).eq, fun r hr => ?_⟩
    cases mem_references_cases.1 hr with
    | inl hr => exact hstays r (halike.reference ▸ hr)
    | inr hr =>
      obtain ⟨c, hc, hr⟩ := hr
      obtain ⟨c', _, hc'⟩ := halike.child hc
      exact (hc'.unchanged hst).2 r hr
  · obtain hstays | ⟨c', hc', hb⟩ | ⟨a, ha, hab⟩ := h.references hb
    · exact .inl hstays
    · obtain ⟨c, hc, hpassed⟩ := halike.flip.child hc'
      cases hpassed.inherits b hb with
      | inl hstays => exact .inl hstays
      | inr h =>
        obtain ⟨a, ha, hab⟩ := h
        exact .inr ⟨a, references_child hc ha, hab⟩
    · exact .inr ⟨a, mem_references_cases.2 (.inl (halike.reference ▸ ha)), hab⟩

theorem ensures_inlineNode_bound {path : String} {node : Schema} {st : InlineState}
    (hknown : scope.Known st.known) :
    Ensures (inlineNode scope path (scope.registry.referenceBound + 1) node) st
      (Inlined scope st node) scope.Fails :=
  ensures_inlineNode hknown fun _ hp _ => Nat.lt_succ_of_lt hp.length_lt

/-- Inlining stays within the relation: a node is related to itself with related children in place
of its own, and to what it unfolds to. -/
structure Respected (scope : Scope) (R : Schema → Schema → Prop) : Prop where
  trans {a b c : Schema} : R a b → R b c → R a c
  alike {s t : Schema} : Alike R s t → R s t
  unfolds {s t : Schema} {new : List String} : scope.Unfolds s new t → R s t

theorem Respected.visits {R : Schema → Schema → Prop} (h : Respected scope R) (root : Schema) :
    Visits (fun path node => inlineNode scope path (scope.registry.referenceBound + 1) node)
      (Within · root) (fun st => scope.Known st.known) (fun _ => R) scope.Fails where
  below h hc := h.below hc
  node := by
    intro path s s' st _ hknown halike
    refine (ensures_inlineNode_bound hknown).mono (fun t st' hinlined => ?_) fun _ h => h
    obtain ⟨hknown', new, _, hunfolds⟩ := hinlined
    exact ⟨⟨hknown', fun _ _ h => h⟩, h.trans (h.alike halike) (h.unfolds hunfolds)⟩

theorem Respected.inlineFrom {R : Schema → Schema → Prop} (h : Respected scope R)
    {known : Entries Bool} {last : List String} {passed left passes : Nat} {root tree : Schema}
    (hknown : scope.Known known)
    (hrun : inlineFrom scope known last passed left root = .ok (tree, passes)) : R root tree := by
  induction left generalizing known last passed root with
  | zero => cases hrun
  | succ left ih =>
    rw [Schema.inlineFrom] at hrun
    obtain ⟨⟨t, st⟩, hpass, hrun⟩ := bind_eq_ok hrun
    obtain ⟨hafter, ht⟩ :=
      ((h.visits root).walk "#" root { known := known } (.refl root) hknown).of_ok hpass
    dsimp only at hrun
    split at hrun
    · cases hrun
      exact ht
    · exact h.trans ht (ih hafter.1 hrun)

theorem visits_inlineNode (root : Schema) :
    Visits (fun path node => inlineNode scope path (scope.registry.referenceBound + 1) node)
      (Within · root) (Passing scope root) (Passed scope) scope.Fails where
  below h hc := h.below hc
  node := by
    intro path s s' st hs hst halike
    refine (ensures_inlineNode_bound hst.known).mono (fun t st' h => ?_) fun _ h => h
    obtain ⟨hknown, new, hnew, hunfolds⟩ := h
    refine ⟨⟨⟨hknown, fun hsome => ?_⟩, fun a b hab => ⟨fun hnone => ?_, hab.inherits⟩⟩,
      .unfold halike hunfolds hnew⟩
    · cases new with
      | nil => exact hst.expandable (by rwa [hnew, List.append_nil] at hsome)
      | cons r rest =>
        obtain ⟨hr, hexpandable⟩ := hunfolds.cons
        refine ⟨r, references_within hs (mem_references_cases.2 (.inl ?_)), hexpandable⟩
        rw [halike.reference, hr]
    · rw [hnew, List.append_eq_nil_iff] at hnone
      exact hab.unchanged hnone.1

theorem ensures_inlinePass {known : Entries Bool} (hknown : scope.Known known) (root : Schema) :
    Ensures (inlinePass scope root) { known := known }
      (fun t st => Passing scope root st ∧ Passed scope st root t) scope.Fails :=
  ((visits_inlineNode root).walk "#" root _ (.refl root) ⟨hknown, fun h => absurd rfl h⟩).mono
    (fun _ _ h => ⟨h.1.1, h.2⟩) fun _ h => h

theorem inlineFrom_step {known : Entries Bool} (hknown : scope.Known known) (last : List String)
    (passed left : Nat) (root : Schema) :
    (∃ t st, Passing scope root st ∧ Passed scope st root t ∧
      inlineFrom scope known last passed (left + 1) root =
        if st.inlined.isEmpty then .ok (t, passed + 1)
        else inlineFrom scope st.known st.inlined (passed + 1) left t) ∨
      ∃ e, inlineFrom scope known last passed (left + 1) root = .error e ∧ scope.Fails e := by
  obtain ⟨t, st, hrun, hpassing, hpassed⟩ | ⟨e, hrun, he⟩ := (ensures_inlinePass hknown root).cases
  · change (inlinePass scope root).run { known := known } = _ at hrun
    refine .inl ⟨t, st, hpassing, hpassed, ?_⟩
    rw [inlineFrom, hrun]
    rfl
  · change (inlinePass scope root).run { known := known } = _ at hrun
    refine .inr ⟨e, ?_, he⟩
    rw [inlineFrom, hrun]
    rfl

end Schema

end SchemaCatalog
