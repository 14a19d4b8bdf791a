import SchemaCatalog.Proofs.Schema.Size
import SchemaCatalog.Proofs.Schema.References
import SchemaCatalog.Proofs.Catalog.Holding
import SchemaCatalog.Catalog.TypeShape

namespace SchemaCatalog

namespace Schema

/-- A field for the schema asks for a type of this very schema. -/
def standsAlone (s : Schema) : Bool :=
  s.reference.isNone && match s.shape with
    | .object => s.properties.isSome || s.patternProperties.isSome
    | .choice => true
    | .anyOf => s.anyOf.any fun members => (singleOrArray members).isNone
    | _ => false

def cost (s : Schema) : Nat := 2 ^ s.size

def elementCost (s : Schema) : Nat := 2 ^ (s.size + 1) - 1

/-- What a field for the schema costs. It costs less than the request unless it asks for this very
type, and then what it finds is plain. -/
def fieldCost (s : Schema) (spec : Option FieldSpec) : Nat :=
  if s.standsAlone && spec.all FieldSpec.isPlain then s.cost else s.cost - 1

theorem fieldCost_le (s : Schema) (spec : Option FieldSpec) : s.fieldCost spec ≤ s.cost := by
  unfold fieldCost
  split
  · exact Nat.le_refl _
  · exact Nat.sub_le _ _

theorem le_fieldCost (s : Schema) (spec : Option FieldSpec) : s.cost - 1 ≤ s.fieldCost spec := by
  unfold fieldCost
  split
  · exact Nat.sub_le _ _
  · exact Nat.le_refl _

theorem cost_pos (s : Schema) : 0 < s.cost := Nat.two_pow_pos _

theorem elementCost_eq (s : Schema) : s.elementCost + 1 = 2 * s.cost := by
  have := s.cost_pos
  rw [elementCost, cost, Nat.pow_succ] at *
  omega

theorem elementCost_lt {c s : Schema} (h : Child c s) : c.elementCost < s.cost := by
  have hpow : 2 ^ (c.size + 1) ≤ 2 ^ s.size := Nat.pow_le_pow_right Nat.two_pos (size_child h)
  have := Nat.two_pow_pos (c.size + 1)
  rw [elementCost, cost]
  omega

theorem sum_elementCost_lt (parts : List Schema) :
    (parts.map elementCost).sum < 2 ^ ((parts.map size).sum + 1) := by
  induction parts with
  | nil => decide
  | cons first rest ih =>
    have hfirst : 0 < first.size := by
      rw [size_eq]
      exact Nat.succ_pos _
    rw [List.map_cons, List.sum_cons, List.map_cons, List.sum_cons]
    cases rest with
    | nil =>
      have := Nat.two_pow_pos (first.size + 1)
      simp only [List.map_nil, List.sum_nil, Nat.add_zero]
      rw [elementCost]
      omega
    | cons second rest =>
      -- both factors are at least two, so their product is at least their sum
      generalize hk : ((second :: rest).map size).sum = k at ih ⊢
      have hsecond : 0 < k := by
        rw [← hk, List.map_cons, List.sum_cons, size_eq]
        omega
      have ha : 2 ≤ 2 ^ first.size := Nat.le_self_pow hfirst.ne' 2
      have hb : 2 ≤ 2 ^ k := Nat.le_self_pow hsecond.ne' 2
      have hproduct : 2 ^ first.size + 2 ^ k ≤ 2 ^ first.size * 2 ^ k := Nat.add_le_mul ha hb
      have hpow : 2 ^ (first.size + k + 1) = 2 * (2 ^ first.size * 2 ^ k) := by
        rw [Nat.pow_succ, Nat.pow_add, Nat.mul_comm]
      have hcost := elementCost_eq first
      rw [cost] at hcost
      rw [Nat.pow_succ] at ih
      omega

def parts (s : Schema) : List Schema :=
  (s.properties.getD []).map Prod.snd ++
    ((s.patternProperties.getD []).map Prod.snd ++ s.undeclared)

theorem sublist_parts (s : Schema) : s.parts.Sublist s.subschemas := by
  rw [parts, subschemas]
  apply List.Sublist.append_left
  apply List.Sublist.append_left
  -- definitions and items stand in between
  exact (List.sublist_append_left _ _).trans
    ((List.sublist_append_right _ _).trans (List.sublist_append_right _ _))

theorem sum_parts_lt (s : Schema) : (s.parts.map size).sum < s.size := by
  rw [size_eq]
  have hle := (s.sublist_parts.map size).sum_le_sum fun n _ => Nat.zero_le n
  exact Nat.lt_succ_of_le hle

theorem parts_lt_cost (s : Schema) : (s.parts.map elementCost).sum < s.cost := by
  have hpow : 2 ^ ((s.parts.map size).sum + 1) ≤ 2 ^ s.size :=
    Nat.pow_le_pow_right Nat.two_pos s.sum_parts_lt
  exact Nat.lt_of_lt_of_le (sum_elementCost_lt s.parts) hpow

theorem isObject_of_shape {s : Schema} (h : s.shape = .object) : s.isObject = true := by
  unfold shape at h
  split at h
  · rename_i type htype
    unfold isObject
    rw [htype]
    grind
  · grind

theorem untyped_of_shape {s : Schema} (h : s.shape = .choice ∨ s.shape = .anyOf) :
    s.keywords.type.isNone = true := by
  unfold shape at h
  split at h
  · grind
  · rw [← Option.not_isSome]
    grind

theorem oneOf_of_shape {s : Schema} (h : s.shape = .choice) : s.oneOf.isSome = true := by
  unfold shape at h
  split at h <;> grind

theorem standsAlone_of_typed {s : Schema} {asChoice : Bool} (h : s.holding = .typed asChoice) :
    s.standsAlone = true := by
  unfold holding at h
  unfold standsAlone
  grind [singleOrArray]

end Schema

/-- A type for alternatives is only asked for if the schema is a choice. -/
def Request.Apt (r : Request) : Prop :=
  r.asChoice = true → r.schema.reference = none ∧ r.schema.shape = .choice

def Request.Spelled (b : Builder) (r : Request) : Prop := ∃ stub, r.name = b.typeName stub

theorem Request.apt_of_plain {r : Request} (h : r.asChoice = false) : r.Apt :=
  fun hchoice => absurd (h.symm.trans hchoice) Bool.false_ne_true

namespace Builder

/-- A type that is only another name does not ask for itself. -/
theorem standsAlone_of_alias {r : Request} (h : formOf r = .alias) :
    r.schema.standsAlone = false := by
  unfold formOf at h
  unfold Schema.standsAlone
  cases hreference : r.schema.reference with
  | some reference => rfl
  | none =>
    simp only [hreference] at h
    cases hshape : r.schema.shape with
    | object =>
      have hobject := Schema.isObject_of_shape hshape
      simp [hobject] at h
      grind
    | choice =>
      have huntyped := Schema.untyped_of_shape (.inl hshape)
      have hchoice := Schema.oneOf_of_shape hshape
      simp [huntyped, hchoice] at h
    | anyOf =>
      have huntyped := Schema.untyped_of_shape (.inr hshape)
      simp only [huntyped] at h
      grind
    | _ => rfl

/-- A relation between states of a construction that the three moves keep to, from a state to what
is reached from it at a cost. `Q` holds of the references that are met, `bad` of the errors. -/
structure Moves (b : Builder) (Q : String → Prop) (bad : CatalogError → Prop)
    (G : Nat → Progress → Progress → Prop) : Prop where
  refl (p : Progress) : G 0 p p
  trans {m n : Nat} {p p' p'' : Progress} : G m p p' → G n p' p'' → G (m + n) p p''
  mono {m n : Nat} {p p' : Progress} : m ≤ n → G m p p' → G n p p'
  record (d : Diagnostic) (p : Progress) : G 0 p { p with diagnostics := p.diagnostics ++ [d] }
  request {r : Request} (p : Progress) : Schema.Inside Q r.schema → r.Apt → r.Spelled b →
    Ensures (request r) p (fun _ p' => G r.schema.cost p p') bad
  follow {r : String} (path : String) (p : Progress) : Q r →
    Ensures (b.referenceSpec r path) p (fun _ p' => G 0 p p') bad

/-- The step leads to its results at no more than their cost. -/
def Spends (G : Nat → Progress → Progress → Prop) (bad : CatalogError → Prop) {α : Type}
    (cost : α → Nat) (x : BuildM α) : Prop :=
  ∀ p, Ensures x p (fun a p' => G (cost a) p p') bad

namespace Moves

variable {b : Builder} {Q : String → Prop} {bad : CatalogError → Prop}
  {G : Nat → Progress → Progress → Prop} {α β : Type} (h : Moves b Q bad G)

include h

theorem pure {cost : α → Nat} (a : α) : Spends G bad cost (pure a : BuildM α) :=
  fun p => ensures_pure (h.mono (Nat.zero_le _) (h.refl p))

theorem bind {x : BuildM α} {f : α → BuildM β} {first : α → Nat} {second : α → β → Nat}
    {cost : β → Nat} (hx : Spends G bad first x) (hf : ∀ a, Spends G bad (second a) (f a))
    (hcost : ∀ a c, first a + second a c ≤ cost c) : Spends G bad cost (x >>= f) := by
  intro p
  apply ensures_bind (hx p)
  intro a p' hp'
  refine (hf a p').mono (fun c p'' hp'' => ?_) fun _ he => he
  exact h.mono (hcost a c) (h.trans hp' hp'')

theorem weaken {x : BuildM α} {less cost : α → Nat} (hx : Spends G bad less x)
    (hcost : ∀ a, less a ≤ cost a) : Spends G bad cost x :=
  fun p => (hx p).mono (fun a _ hp' => h.mono (hcost a) hp') fun _ he => he

theorem seq {x : BuildM α} {f : α → BuildM β} {m n k : Nat} (hx : Spends G bad (fun _ => m) x)
    (hf : ∀ a, Spends G bad (fun _ => n) (f a)) (hk : m + n ≤ k) :
    Spends G bad (fun _ => k) (x >>= f) :=
  h.bind hx hf fun _ _ => hk

theorem map {x : BuildM α} {n : Nat} (hx : Spends G bad (fun _ => n) x) (f : α → β) :
    Spends G bad (fun _ => n) (do return f (← x)) :=
  h.seq hx (fun a => h.pure (f a)) (Nat.add_zero n).le

theorem warn {n : Nat} (code path message : String) :
    Spends G bad (fun _ => n) (warn code path message) :=
  fun p => ensures_modify (h.mono (Nat.zero_le n) (h.record _ p))

theorem warn_none {cost : Option α → Nat} (code path message : String) :
    Spends G bad cost (do Builder.warn code path message; return none) := by
  have hwarn : Spends G bad (fun _ => 0) (Builder.warn code path message) :=
    h.warn code path message
  exact h.bind hwarn (fun _ => h.pure none) fun _ _ => Nat.zero_add _ |>.le

/-- A list or table of what was found, where this needs a type of its own unless it is plain. -/
theorem element {x : BuildM (Option FieldSpec)} {none' : BuildM β} {s : Schema}
    (hx : Spends G bad s.fieldCost x) (hs : Schema.Inside Q s)
    (hnone : Spends G bad (fun _ => 0) none') (stub path : String) (f : TypeRef → β) :
    Spends G bad (fun _ => s.elementCost) (do
      match ← x with
      | none => none'
      | some spec => return f (← b.elementType spec s stub path)) := by
  have htype (spec : FieldSpec) : Spends G bad (fun _ => s.elementCost - s.fieldCost (some spec))
      (do return f (← b.elementType spec s stub path)) := by
    apply h.map
    unfold elementType
    by_cases hplain : spec.isPlain = true
    · rw [if_pos hplain]
      exact h.pure _
    · rw [if_neg hplain]
      intro p
      have hrequest := h.request p hs
        (Request.apt_of_plain (r := ⟨b.typeName stub, stub, path, s, false⟩) rfl) ⟨stub, rfl⟩
      refine hrequest.mono (fun _ p' hp' => h.mono ?_ hp') fun _ he => he
      have hcost : s.fieldCost (some spec) = s.cost - 1 := by
        simp [Schema.fieldCost, hplain]
      have := s.elementCost_eq
      dsimp only
      omega
  have hrest (spec : Option FieldSpec) : Spends G bad (fun _ => s.elementCost - s.fieldCost spec)
      (match spec with
        | none => none'
        | some spec => do return f (← b.elementType spec s stub path)) := by
    cases spec with
    | none => exact h.weaken hnone fun _ => Nat.zero_le _
    | some spec => exact htype spec
  refine h.bind hx hrest fun spec _ => ?_
  have := s.fieldCost_le spec
  have := s.elementCost_eq
  have := s.cost_pos
  omega

end Moves

end Builder

end SchemaCatalog
