import SchemaCatalog.Proofs.Schema.Equivalence
import SchemaCatalog.Proofs.Catalog.Shapes

namespace SchemaCatalog

theorem Keywords.deciding_of_same {a b : Keywords} (h : a.same b = true) :
    a.reference = b.reference ∧ a.type = b.type ∧ a.format = b.format := by
  simp only [same, Bool.and_eq_true, beq_iff_eq] at h
  casesm* _ ∧ _
  exact ⟨‹_›, ‹_›, ‹_›⟩

theorem optionRel_isNone {α β : Type} {R : α → β → Prop} {a : Option α} {b : Option β}
    (h : Option.Rel R a b) : a.isNone = b.isNone := by
  cases h <;> rfl

namespace Schema

variable {s t : Schema}

theorem Same.reference (h : Same s t) : s.reference = t.reference :=
  (Keywords.deciding_of_same h.keywords).1

theorem Same.typeName? (h : Same s t) : s.typeName? = t.typeName? := by
  rw [Schema.typeName?, Schema.typeName?, (Keywords.deciding_of_same h.keywords).2.1]

theorem Same.shape (h : Same s t) : s.shape = t.shape := by
  obtain ⟨_, htype, hformat⟩ := Keywords.deciding_of_same h.keywords
  have hobject : s.isObject = t.isObject := by
    rw [isObject, isObject, h.typeName?, htype, optionRel_isSome h.properties,
      optionRel_isSome h.patternProperties, optionRel_isSome h.additionalProperties]
  rw [Schema.shape, Schema.shape, h.typeName?, htype, hformat, hobject, optionRel_isSome h.oneOf,
    optionRel_isSome h.anyOf, optionRel_isNone h.items, optionRel_isNone h.allOf,
    optionRel_isNone h.not]

theorem isArrayOf_of_same {array element array' element' : Schema}
    (harray : array.same array' = true) (helement : element.same element' = true) :
    isArrayOf array element = isArrayOf array' element' := by
  have hsame := same_iff.1 harray
  have hitems := hsame.items
  rw [isArrayOf, isArrayOf, hsame.typeName?]
  generalize array.items = items at hitems ⊢
  generalize array'.items = items' at hitems ⊢
  cases hitems with
  | none => rfl
  | some h =>
    cases h with
    | single h => exact congrArg _ ((BEq.congr_left h).trans (BEq.congr_right helement))
    | tuple h => rfl

theorem elementSide_of_same {first second first' second' : Schema}
    (hfirst : first.same first' = true) (hsecond : second.same second' = true) :
    elementSide first second = elementSide first' second' := by
  rw [elementSide, elementSide, isArrayOf_of_same hsecond hfirst, isArrayOf_of_same hfirst hsecond]

end Schema

/-- Two ways to hold the values of equal schemas. -/
inductive Holding.Same : Holding → Holding → Prop
  | follows {reference} : Same (.follows reference) (.follows reference)
  | plainly {spec} : Same (.plainly spec) (.plainly spec)
  | list {a b segment} : a.same b = true → Same (.list a segment) (.list b segment)
  | table {a b} : a.same b = true → Same (.table a) (.table b)
  | typed {asChoice} : Same (.typed asChoice) (.typed asChoice)
  | refused {code message} : Same (.refused code message) (.refused code message)

namespace Schema

variable {s t : Schema}

theorem Same.holding (h : Same s t) : s.holding.Same t.holding := by
  have hitems := h.items
  have hadditional := h.additionalProperties
  have hanyOf := h.anyOf
  unfold Schema.holding
  rw [h.reference, h.shape, optionRel_isSome h.properties, optionRel_isSome h.patternProperties]
  split
  · exact .follows
  · split
    · exact .plainly
    · generalize s.items = items at hitems ⊢
      generalize t.items = items' at hitems ⊢
      cases hitems with
      | none => exact .plainly
      | some h =>
        cases h with
        | single h => exact .list h
        | tuple h =>
          cases h with
          | nil => exact .plainly
          | cons h _ => exact .list h
    · split
      · exact .typed
      · generalize s.additionalProperties = additional at hadditional ⊢
        generalize t.additionalProperties = additional' at hadditional ⊢
        cases hadditional with
        | none => exact .plainly
        | some h =>
          cases h with
          | allowed => exact .plainly
          | schema h => exact .table h
    · exact .refused
    · exact .refused
    · exact .typed
    · generalize s.anyOf = members at hanyOf ⊢
      generalize t.anyOf = members' at hanyOf ⊢
      cases hanyOf with
      | none => exact .refused
      | some h =>
        have hlength := h.length_eq
        cases h with
        | nil => exact .refused
        | cons hfirst h =>
          cases h with
          | nil => exact .refused
          | cons hsecond h =>
            cases h with
            | nil =>
              dsimp only
              rw [elementSide_of_same hfirst hsecond]
              split
              · exact .list hfirst
              · exact .list hsecond
              · exact .typed
            | cons _ _ =>
              simp only [Option.getD_some, hlength]
              exact .refused
    · exact .plainly
    · exact .refused

theorem endsIn_of_same (h : s.same t = true) : s.endsIn = t.endsIn := by
  induction s using child_induction generalizing t with
  | h s ih =>
    have hholding := (same_iff.1 h).holding
    rw [endsIn_eq, endsIn_eq]
    generalize hs : s.holding = holding at hholding ⊢
    generalize t.holding = holding' at hholding ⊢
    cases hholding with
    | list h => exact ih _ (child_of_holding_list hs) h
    | table h => exact ih _ (child_of_holding_table hs) h
    | _ => rfl

end Schema

theorem Builder.specOf_of_same {s t : Schema} (b : Builder) (stub : String)
    (h : s.same t = true) : b.specOf stub s = b.specOf stub t := by
  induction s using Schema.child_induction generalizing t stub with
  | h s ih =>
    have hholding := (Schema.same_iff.1 h).holding
    rw [specOf_eq, specOf_eq]
    generalize hs : s.holding = holding at hholding ⊢
    generalize t.holding = holding' at hholding ⊢
    cases hholding with
    | list h =>
      dsimp only
      rw [ih _ (Schema.child_of_holding_list hs) _ h]
    | table h =>
      dsimp only
      rw [ih _ (Schema.child_of_holding_table hs) _ h]
    | _ => rfl

end SchemaCatalog
