import SchemaCatalog.Proofs.Schema.Equivalence
import SchemaCatalog.Proofs.Schema.Size
import SchemaCatalog.Catalog.FieldShape

namespace SchemaCatalog

namespace Schema

variable {s t array element : Schema}

theorem matched_table {as bs : Option (Entries Schema)}
    (h : Option.Rel (fun as bs => Entries.pairsUp same as bs = true) as bs) :
    Matched (fun a b => a.same b = true) ((as.getD []).map Prod.snd)
      ((bs.getD []).map Prod.snd) := by
  cases h with
  | none => exact matched_of_forall₂ .nil
  | some h => exact (Entries.matched_of_pairsUp h).map fun _ _ h => h.2

theorem matched_lists {as bs : Option (List Schema)}
    (h : Option.Rel (List.Forall₂ fun a b => a.same b = true) as bs) :
    Matched (fun a b => a.same b = true) (as.getD []) (bs.getD []) := by
  cases h with
  | none => exact matched_of_forall₂ .nil
  | some h => exact matched_of_forall₂ h

theorem Same.matched_itemSchemas (h : Same s t) :
    Matched (fun a b => a.same b = true) s.itemSchemas t.itemSchemas := by
  have hitems := h.items
  unfold itemSchemas
  generalize s.items = items at hitems ⊢
  generalize t.items = items' at hitems ⊢
  apply matched_of_forall₂
  cases hitems with
  | none => exact .nil
  | some h =>
    cases h with
    | single h => exact .cons h .nil
    | tuple h => exact h

theorem Same.matched_undeclared (h : Same s t) :
    Matched (fun a b => a.same b = true) s.undeclared t.undeclared := by
  have hadditional := h.additionalProperties
  unfold undeclared
  generalize s.additionalProperties = additional at hadditional ⊢
  generalize t.additionalProperties = additional' at hadditional ⊢
  apply matched_of_forall₂
  cases hadditional with
  | none => exact .nil
  | some h =>
    cases h with
    | allowed => exact .nil
    | schema h => exact .cons h .nil

theorem matched_node {a b : Option Schema} (h : Option.Rel (fun a b => a.same b = true) a b) :
    Matched (fun a b => a.same b = true) a.toList b.toList := by
  apply matched_of_forall₂
  cases h with
  | none => exact .nil
  | some h => exact .cons h .nil

theorem Same.matched_subschemas (h : Same s t) :
    Matched (fun a b => a.same b = true) s.subschemas t.subschemas :=
  (matched_table h.properties).append <| (matched_table h.patternProperties).append <|
    (matched_table h.definitions).append <| h.matched_itemSchemas.append <|
    h.matched_undeclared.append <| (matched_lists h.allOf).append <|
    (matched_lists h.anyOf).append <| (matched_lists h.oneOf).append (matched_node h.not)

theorem size_of_same (h : s.same t = true) : s.size = t.size := by
  induction s using child_induction generalizing t with
  | h s ih =>
    have hsizes : (s.subschemas.map size).Perm (t.subschemas.map size) :=
      (same_iff.1 h).matched_subschemas.map_perm fun c hc _ hsame =>
        ih c (mem_subschemas_iff.1 hc) hsame
    rw [size_eq, size_eq, hsizes.sum_eq]

theorem size_lt_of_isArrayOf (h : isArrayOf array element = true) : element.size < array.size := by
  rw [isArrayOf, Bool.and_eq_true] at h
  obtain ⟨_, hitems⟩ := h
  split at hitems
  · rename_i item hitem
    rw [← size_of_same hitems]
    exact size_child (.item hitem)
  · cases hitems

theorem isArrayOf_asymm (h : isArrayOf array element = true) : isArrayOf element array = false := by
  apply Bool.eq_false_iff.2
  intro h'
  exact Nat.lt_asymm (size_lt_of_isArrayOf h) (size_lt_of_isArrayOf h')

def Side.other : Side → Side
  | .first => .second
  | .second => .first

theorem elementSide_eq_first_iff {a b : Schema} :
    elementSide a b = some .first ↔ isArrayOf b a = true := by
  unfold elementSide
  cases isArrayOf b a <;> cases isArrayOf a b <;> decide

theorem elementSide_eq_second_iff {a b : Schema} :
    elementSide a b = some .second ↔ isArrayOf a b = true := by
  unfold elementSide
  cases hb : isArrayOf b a with
  | true => simp [isArrayOf_asymm hb]
  | false => cases isArrayOf a b <;> decide

theorem elementSide_swap (a b : Schema) : elementSide b a = (elementSide a b).map Side.other := by
  unfold elementSide
  cases hb : isArrayOf b a with
  | true =>
    rw [isArrayOf_asymm hb]
    rfl
  | false => cases isArrayOf a b <;> rfl

theorem singleOrArray_eq_some_iff {a b : Schema} : singleOrArray [a, b] = some element ↔
    (isArrayOf b a = true ∧ element = a) ∨ (isArrayOf a b = true ∧ element = b) := by
  rw [← elementSide_eq_first_iff, ← elementSide_eq_second_iff, singleOrArray]
  cases elementSide a b with
  | none => simp
  | some side => cases side <;> simp [@eq_comm Schema element]

/-- Of two alternatives in either order the same one is the element: the one that the other is an
array of, and none if neither is. -/
theorem singleOrArray_swap (a b : Schema) :
    (∀ element, singleOrArray [a, b] = some element ↔
      (isArrayOf b a = true ∧ element = a) ∨ (isArrayOf a b = true ∧ element = b)) ∧
    singleOrArray [a, b] = singleOrArray [b, a] ∧
    elementSide b a = (elementSide a b).map Side.other := by
  refine ⟨fun _ => singleOrArray_eq_some_iff, ?_, elementSide_swap a b⟩
  apply Option.ext
  intro element
  rw [singleOrArray_eq_some_iff, singleOrArray_eq_some_iff, or_comm]

/-- The properties of the items stand in another order than those of the alternative. -/
example :
    let point : Schema := { properties := some [("x", .ofType "number"), ("y", .ofType "number")] }
    let item : Schema := { properties := some [("y", .ofType "number"), ("x", .ofType "number")] }
    let points : Schema := { ofType "array" with items := some (.single item) }
    elementSide points point = some .second ∧ elementSide points item = some .second := by
  decide +kernel

end Schema

end SchemaCatalog
