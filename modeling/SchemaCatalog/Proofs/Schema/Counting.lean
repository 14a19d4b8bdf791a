import SchemaCatalog.Proofs.Schema.Nodes
import SchemaCatalog.Proofs.Schema.Parallel

namespace SchemaCatalog.Schema

variable {m : Type → Type} [Monad m] {ε : Type} [Runs m Nat ε] {test : Schema → Bool}

/-- Steps that add to a count what is added to a list of nodes among those that pass the test. -/
def tallying (test : Schema → Bool) : Pairing m (StateM (List (String × Schema))) where
  rel R x y := ∀ count notes a count', Runs.outcome x count = .ok (a, count') →
    R a (y.run notes).1 ∧
      count' + notes.countP (test ·.2) = count + (y.run notes).2.countP (test ·.2)
  pure h := by
    intro count notes a count' hrun
    rw [Runs.outcome_pure] at hrun
    cases hrun
    exact ⟨h, rfl⟩
  bind := by
    intro α β γ δ R S x y f g hx hf count notes c count'' hrun
    rw [Runs.outcome_bind] at hrun
    obtain ⟨⟨a, count'⟩, ha, hrun⟩ := bind_eq_ok hrun
    obtain ⟨hR, hcount⟩ := hx count notes a count' ha
    obtain ⟨hS, hcount'⟩ := hf a _ hR count' (y.run notes).2 c count'' hrun
    have hnotes : ((y >>= g).run notes).2 = ((g (y.run notes).1).run (y.run notes).2).2 := rfl
    refine ⟨hS, ?_⟩
    rw [hnotes]
    omega

theorem tallying_note {R : Schema → Schema → Prop} {x : m Schema} {path : String} {n : Schema}
    (h : ∀ count a count', Runs.outcome x count = .ok (a, count') →
      R a n ∧ count' = count + if test n then 1 else 0) :
    (tallying test).rel R x (note path n) := by
  intro count notes a count' hrun
  obtain ⟨hR, hcount⟩ := h count a count' hrun
  have hnotes : ((note path n).run notes).2 = (path, n) :: notes := rfl
  refine ⟨hR, ?_⟩
  simp only [hnotes, List.countP_cons, hcount]
  omega

theorem count_eq_countP {visit : String → Schema → m Schema} {Q R : Schema → Schema → Prop}
    {path : String} {s t : Schema} {count : Nat}
    (h : Parallel (tallying test) visit note (fun _ => True) Q R)
    (hrun : Runs.outcome (walk visit path s) 0 = .ok (t, count)) :
    count = (s.nodes path).countP (test ·.2) := by
  have hwalk := h.walk path s trivial 0 [] t count hrun
  rw [nodes_eq, List.countP_reverse]
  simpa using hwalk.2

end SchemaCatalog.Schema
