import SchemaCatalog.Proofs.Schema.Alike
import SchemaCatalog.Normal.OneOf

namespace SchemaCatalog.Schema

theorem alternatives_of_not_choice {s : Schema} (h : s.isChoice = false) :
    alternatives s = [s] := by
  match s with
  | ⟨_, _, _, _, _, _, _, _, some (first :: rest), _⟩ => simp [isChoice] at h
  | ⟨_, _, _, _, _, _, _, _, some [], _⟩ => simp [alternatives]
  | ⟨_, _, _, _, _, _, _, _, none, _⟩ => simp [alternatives]

theorem alternatives_of_choice {s : Schema} {members : List Schema} (h : s.oneOf = some members)
    (hsome : members ≠ []) : alternatives s = alternativesOf members := by
  cases s with
  | mk kw props patterns defs items additional allOf anyOf oneOf not =>
    cases h
    cases members with
    | nil => exact absurd rfl hsome
    | cons first rest =>
      rw [alternatives, alternativesOf]

theorem mem_alternativesOf {a : Schema} {members : List Schema} :
    a ∈ alternativesOf members ↔ ∃ m ∈ members, a ∈ alternatives m := by
  induction members with
  | nil =>
    rw [alternativesOf]
    simp
  | cons first rest ih =>
    rw [alternativesOf, List.mem_append, ih]
    simp

mutual

theorem not_choice_of_alternative : (s : Schema) → ∀ a ∈ alternatives s, a.isChoice = false
  | ⟨_, _, _, _, _, _, _, _, some (first :: rest), _⟩ => by
    intro a ha
    rw [alternatives] at ha
    cases List.mem_append.1 ha with
    | inl ha => exact not_choice_of_alternative first a ha
    | inr ha => exact not_choice_of_alternatives rest a ha
  | ⟨_, _, _, _, _, _, _, _, some [], _⟩ => by
    intro a ha
    rw [alternatives_of_not_choice rfl] at ha
    rw [List.mem_singleton.1 ha]
    rfl
  | ⟨_, _, _, _, _, _, _, _, none, _⟩ => by
    intro a ha
    rw [alternatives_of_not_choice rfl] at ha
    rw [List.mem_singleton.1 ha]
    rfl

theorem not_choice_of_alternatives :
    (members : List Schema) → ∀ a ∈ alternativesOf members, a.isChoice = false
  | [] => by
    intro a ha
    rw [alternativesOf] at ha
    cases ha
  | s :: rest => by
    intro a ha
    rw [alternativesOf] at ha
    cases List.mem_append.1 ha with
    | inl ha => exact not_choice_of_alternative s a ha
    | inr ha => exact not_choice_of_alternatives rest a ha

end

theorem alternativesOf_of_not_choice {members : List Schema}
    (h : ∀ m ∈ members, m.isChoice = false) : alternativesOf members = members := by
  induction members with
  | nil => rw [alternativesOf]
  | cons first rest ih =>
    rw [alternativesOf, alternatives_of_not_choice (h first List.mem_cons_self),
      ih fun m hm => h m (List.mem_cons_of_mem _ hm)]
    rfl

theorem alternativesOf_alternativesOf (members : List Schema) :
    alternativesOf (alternativesOf members) = alternativesOf members :=
  alternativesOf_of_not_choice (not_choice_of_alternatives members)

theorem alternatives_ne_nil : (s : Schema) → alternatives s ≠ []
  | ⟨_, _, _, _, _, _, _, _, some (first :: rest), _⟩ => by
    rw [alternatives]
    exact List.append_ne_nil_of_left_ne_nil (alternatives_ne_nil first) _
  | ⟨_, _, _, _, _, _, _, _, some [], _⟩ => by
    rw [alternatives_of_not_choice rfl]
    exact List.cons_ne_nil _ _
  | ⟨_, _, _, _, _, _, _, _, none, _⟩ => by
    rw [alternatives_of_not_choice rfl]
    exact List.cons_ne_nil _ _

theorem alternativesOf_eq_nil {members : List Schema} :
    alternativesOf members = [] ↔ members = [] := by
  cases members with
  | nil => rw [alternativesOf]
  | cons first rest =>
    rw [alternativesOf]
    simp [alternatives_ne_nil]

theorem isChoice_iff {s : Schema} :
    s.isChoice = true ↔ ∃ members, s.oneOf = some members ∧ members ≠ [] := by
  unfold isChoice
  split
  · rename_i first rest h
    simp [h]
  · rename_i h
    simp only [Bool.false_eq_true, false_iff]
    intro hmembers
    obtain ⟨members, hmembers, hsome⟩ := hmembers
    cases members with
    | nil => exact hsome rfl
    | cons first rest => exact h first rest hmembers

end SchemaCatalog.Schema
