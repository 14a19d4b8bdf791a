import SchemaCatalog.Proofs.Schema.Walk

namespace SchemaCatalog.Schema

/-- What holds of a schema whenever it holds of its children holds of all schemas. -/
theorem child_induction {P : Schema → Prop} (h : ∀ s, (∀ c, Child c s → P c) → P s)
    (s : Schema) : P s := by
  have hvisits : Visits (m := Id) (fun _ node => pure node) (fun _ => True) (fun _ => True)
      (fun _ s t => s = t ∧ P s) (fun _ => True) := by
    refine ⟨fun _ _ => trivial, ?_⟩
    intro path s t st _ _ halike
    have heq : s = t := (halike.mono fun _ _ h => h.1).eq
    subst heq
    refine ensures_pure ⟨⟨trivial, fun _ _ h => h⟩, rfl, h s fun c hc => ?_⟩
    obtain ⟨_, _, _, hP⟩ := halike.child hc
    exact hP
  exact ((hvisits.walk "" s () trivial trivial).of_ok rfl).2.2

def note (path : String) (node : Schema) : StateM (List (String × Schema)) Schema := do
  modify ((path, node) :: ·)
  return node

theorem nodes_eq (path : String) (s : Schema) :
    s.nodes path = ((walk note path s).run []).2.reverse :=
  rfl

theorem visits_note (root : Schema) :
    Visits note (Within · root) (fun st => ∀ e ∈ st, Within e.2 root)
      (fun st a b => a = b ∧ ∀ n, Within n a → ∃ p, (p, n) ∈ st) (fun _ => True) where
  below h hc := h.below hc
  node := by
    intro path s t st hs hI halike
    have heq : s = t := (halike.mono fun _ _ h => h.1).eq
    subst heq
    change ((∀ e ∈ (path, s) :: st, Within e.2 root) ∧ _) ∧ s = s ∧ _
    refine ⟨⟨?_, ?_⟩, rfl, ?_⟩
    · intro e he
      cases he with
      | head => exact hs
      | tail _ he => exact hI e he
    · intro a b hab
      refine ⟨hab.1, fun n hn => ?_⟩
      obtain ⟨p, hp⟩ := hab.2 n hn
      exact ⟨p, List.mem_cons_of_mem _ hp⟩
    · intro n hn
      cases within_iff.1 hn with
      | inl h => exact ⟨path, h ▸ List.mem_cons_self⟩
      | inr h =>
        obtain ⟨c, hc, hn⟩ := h
        obtain ⟨_, _, _, hc'⟩ := halike.child hc
        obtain ⟨p, hp⟩ := hc' n hn
        exact ⟨p, List.mem_cons_of_mem _ hp⟩

theorem mem_nodes_iff {path : String} {n s : Schema} :
    (∃ p, (p, n) ∈ s.nodes path) ↔ Within n s := by
  have h := ((visits_note s).walk path s [] (.refl s) nofun).of_ok rfl
  obtain ⟨⟨hI, _⟩, _, hnodes⟩ := h
  simp only [nodes_eq, List.mem_reverse]
  exact ⟨fun ⟨_, hp⟩ => hI _ hp, hnodes n⟩

theorem mem_references_iff {r : String} {s : Schema} :
    r ∈ s.references ↔ ∃ n, Within n s ∧ n.reference = some r := by
  rw [references, List.mem_filterMap]
  constructor
  · intro h
    obtain ⟨⟨p, n⟩, hp, hr⟩ := h
    exact ⟨n, mem_nodes_iff.1 ⟨p, hp⟩, hr⟩
  · intro h
    obtain ⟨n, hn, hr⟩ := h
    obtain ⟨p, hp⟩ := mem_nodes_iff.2 hn
    exact ⟨(p, n), hp, hr⟩

theorem references_child {r : String} {c s : Schema} (hc : Child c s) (h : r ∈ c.references) :
    r ∈ s.references := by
  obtain ⟨n, hn, hr⟩ := mem_references_iff.1 h
  exact mem_references_iff.2 ⟨n, hn.child hc, hr⟩

theorem mem_references_cases {r : String} {s : Schema} :
    r ∈ s.references ↔ s.reference = some r ∨ ∃ c, Child c s ∧ r ∈ c.references := by
  constructor
  · intro h
    obtain ⟨n, hn, hr⟩ := mem_references_iff.1 h
    cases within_iff.1 hn with
    | inl h => exact .inl (h ▸ hr)
    | inr h =>
      obtain ⟨c, hc, hn⟩ := h
      exact .inr ⟨c, hc, mem_references_iff.2 ⟨n, hn, hr⟩⟩
  · intro h
    cases h with
    | inl h => exact mem_references_iff.2 ⟨s, .refl s, h⟩
    | inr h =>
      obtain ⟨c, hc, h⟩ := h
      exact references_child hc h

def renameNode (f : String → String) (node : Schema) : Schema :=
  match node.reference with
  | some r => node.withReference (f r)
  | none => node

theorem renameNode_reference (f : String → String) (s : Schema) :
    (renameNode f s).reference = s.reference.map f := by
  rw [renameNode]
  cases h : s.reference with
  | none => exact h
  | some r => rfl

theorem renameNode_allOf (f : String → String) (s : Schema) :
    (renameNode f s).allOf = s.allOf := by
  rw [renameNode]
  cases s.reference <;> rfl

theorem child_renameNode {f : String → String} {c s : Schema} :
    Child c (renameNode f s) ↔ Child c s := by
  rw [renameNode]
  cases s.reference with
  | none => exact Iff.rfl
  | some r => exact child_keywords_iff

/-- What a node is and what it has become when references were rewritten. -/
structure Renamed (f : String → String) (s t : Schema) : Prop where
  reference : t.reference = s.reference.map f
  allOf : t.allOf.isSome = s.allOf.isSome

/-- Rewriting references rewrites every node by itself. -/
theorem mapReferences_nodes (f : String → String) (s : Schema) :
    (∀ n, Within n s → ∃ n', Within n' (s.mapReferences f) ∧ Renamed f n n') ∧
      ∀ n', Within n' (s.mapReferences f) → ∃ n, Within n s ∧ Renamed f n n' := by
  have hvisits : Visits (m := Id) (fun _ node => pure (renameNode f node)) (fun _ => True)
      (fun _ => True)
      (fun _ s t => (∀ n, Within n s → ∃ n', Within n' t ∧ Renamed f n n') ∧
        ∀ n', Within n' t → ∃ n, Within n s ∧ Renamed f n n') (fun _ => True) := by
    refine ⟨fun _ _ => trivial, ?_⟩
    intro path s t st _ _ halike
    have hroot : Renamed f s (renameNode f t) := by
      refine ⟨?_, ?_⟩
      · rw [renameNode_reference, halike.reference]
      · rw [renameNode_allOf]
        exact (optionRel_isSome halike.allOf).symm
    refine ensures_pure ⟨⟨trivial, fun _ _ h => h⟩, fun n hn => ?_, fun n' hn' => ?_⟩
    · cases within_iff.1 hn with
      | inl h => exact ⟨_, .refl _, h ▸ hroot⟩
      | inr h =>
        obtain ⟨c, hc, hn⟩ := h
        obtain ⟨c', hc', hforward, _⟩ := halike.child hc
        obtain ⟨n', hn', hnode⟩ := hforward n hn
        exact ⟨n', hn'.child (child_renameNode.2 hc'), hnode⟩
    · cases within_iff.1 hn' with
      | inl h => exact ⟨s, .refl s, h ▸ hroot⟩
      | inr h =>
        obtain ⟨c', hc', hn'⟩ := h
        obtain ⟨c, hc, _, hback⟩ := halike.flip.child (child_renameNode.1 hc')
        obtain ⟨n, hn, hnode⟩ := hback n' hn'
        exact ⟨n, hn.child hc, hnode⟩
  exact ((hvisits.walk "" s () trivial trivial).of_ok rfl).2

theorem mem_references_mapReferences {f : String → String} {r : String} {s : Schema} :
    r ∈ (s.mapReferences f).references ↔ ∃ r' ∈ s.references, r = f r' := by
  obtain ⟨hforward, hback⟩ := mapReferences_nodes f s
  constructor
  · intro h
    obtain ⟨n', hn', hr⟩ := mem_references_iff.1 h
    obtain ⟨n, hn, hnode⟩ := hback n' hn'
    rw [hnode.reference, Option.map_eq_some_iff] at hr
    obtain ⟨r', hr', h⟩ := hr
    exact ⟨r', mem_references_iff.2 ⟨n, hn, hr'⟩, h.symm⟩
  · intro h
    obtain ⟨r', hr', h⟩ := h
    obtain ⟨n, hn, hr⟩ := mem_references_iff.1 hr'
    obtain ⟨n', hn', hnode⟩ := hforward n hn
    refine mem_references_iff.2 ⟨n', hn', ?_⟩
    rw [hnode.reference, hr, h]
    rfl

end SchemaCatalog.Schema
