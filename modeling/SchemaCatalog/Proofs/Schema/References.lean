import SchemaCatalog.Proofs.Schema.Nodes
import SchemaCatalog.Proofs.Schema.Rewriting

namespace SchemaCatalog.Schema

/-- Every reference in the schema satisfies `Q`. -/
def Inside (Q : String → Prop) (s : Schema) : Prop := ∀ r ∈ s.references, Q r

variable {Q : String → Prop} {s t : Schema}

theorem inside_iff :
    Inside Q s ↔ (∀ r, s.reference = some r → Q r) ∧ ∀ c, Child c s → Inside Q c := by
  constructor
  · intro h
    exact ⟨fun r hr => h r (mem_references_cases.2 (.inl hr)),
      fun c hc r hr => h r (references_child hc hr)⟩
  · intro h r hr
    cases mem_references_cases.1 hr with
    | inl hr => exact h.1 r hr
    | inr hr =>
      obtain ⟨c, hc, hr⟩ := hr
      exact h.2 c hc r hr

theorem Inside.reference {r : String} (h : Inside Q s) (hr : s.reference = some r) : Q r :=
  (inside_iff.1 h).1 r hr

theorem Inside.child {c : Schema} (h : Inside Q s) (hc : Child c s) : Inside Q c :=
  (inside_iff.1 h).2 c hc

theorem mapReferences_eq_self {f : String → String} (h : Inside (fun r => f r = r) s) :
    s.mapReferences f = s := by
  have hvisits : Visits (m := Id) (fun _ node => pure (renameNode f node))
      (Inside fun r => f r = r) (fun _ => True) (fun _ => Eq) (fun _ => True) := by
    refine ⟨fun h hc => h.child hc, ?_⟩
    intro path s t st hs _ halike
    have heq := halike.eq
    subst heq
    refine ensures_pure ⟨⟨trivial, fun _ _ h => h⟩, ?_⟩
    unfold renameNode
    cases hr : s.reference with
    | none => rfl
    | some r =>
      dsimp only
      rw [hs.reference hr]
      obtain ⟨kw, _, _, _, _, _, _, _, _, _⟩ := s
      obtain ⟨_, reference⟩ := kw
      cases hr
      rfl
  exact ((hvisits.walk "" s () h trivial).of_ok rfl).2.symm

end SchemaCatalog.Schema
