import SchemaCatalog.Schema.Merging

namespace SchemaCatalog

namespace Entries

variable {α : Type}

theorem addMissing_cons (entries : Entries α) (key : String) (value : α) (rest : Entries α) :
    entries.addMissing ((key, value) :: rest) =
      (if entries.has key then entries else entries ++ [(key, value)]).addMissing rest :=
  rfl

theorem has_eq_contains (entries : Entries α) (key : String) :
    entries.has key = entries.keys.contains key := by
  induction entries with
  | nil => rfl
  | cons entry rest ih =>
    obtain ⟨k, value⟩ := entry
    rw [has] at ih ⊢
    rw [lookup_cons, keys_cons, List.contains_cons, ← ih]
    by_cases h : key = k
    · simp [h]
    · simp [h]

theorem has_append (entries new : Entries α) (key : String) :
    has (entries ++ new) key = (entries.has key || new.has key) := by
  rw [has, has, has, List.lookup_append]
  cases List.lookup key entries <;> rfl

theorem has_addMissing (entries new : Entries α) (key : String) :
    (entries.addMissing new).has key = (entries.has key || new.has key) := by
  induction new generalizing entries with
  | nil => exact (Bool.or_false _).symm
  | cons first rest ih =>
    obtain ⟨k, value⟩ := first
    have hfirst : has ((k, value) :: rest) key = (has [(k, value)] key || has rest key) :=
      has_append [(k, value)] rest key
    rw [addMissing_cons, ih, hfirst]
    split
    · rename_i hk
      by_cases hkey : key = k
      · rw [hkey, hk, Bool.true_or, Bool.true_or]
      · simp [has, lookup_cons, hkey]
    · rw [has_append, Bool.or_assoc]

/-- Under each key stands what was there, or else what the filling table has. -/
theorem lookup_addMissing_eq (entries new : Entries α) (key : String) :
    (entries.addMissing new).lookup key = (entries.lookup key).or (new.lookup key) := by
  induction new generalizing entries with
  | nil => exact Option.or_none.symm
  | cons entry rest ih =>
    obtain ⟨k, value⟩ := entry
    rw [addMissing_cons, ih, lookup_cons]
    cases hk : entries.has k with
    | true =>
      obtain ⟨known, hknown⟩ := Option.isSome_iff_exists.1 hk
      by_cases h : key = k
      · simp [h, hknown]
      · simp [h]
    | false =>
      have hnone : entries.lookup k = none := 
        Option.not_isSome_iff_eq_none.1 (Bool.eq_false_iff.1 hk)
      by_cases h : key = k
      · simp [h, hnone, List.lookup_append]
      · simp [h, List.lookup_append, lookup_cons]

theorem addMissing_append (entries first rest : Entries α) :
    entries.addMissing (first ++ rest) = (entries.addMissing first).addMissing rest :=
  List.foldl_append

theorem addMissing_assoc (entries new more : Entries α) :
    (entries.addMissing new).addMissing more = entries.addMissing (new.addMissing more) := by
  induction more generalizing new with
  | nil => rfl
  | cons first rest ih =>
    obtain ⟨key, value⟩ := first
    rw [addMissing_cons, addMissing_cons, ← ih, has_addMissing]
    cases hnew : new.has key with
    | true => rw [Bool.or_true, if_pos rfl, if_pos rfl]
    | false =>
      rw [Bool.or_false, if_neg Bool.false_ne_true, addMissing_append, addMissing_cons,
        has_addMissing, hnew, Bool.or_false]
      rfl

theorem prefix_addMissing (entries new : Entries α) : entries <+: entries.addMissing new := by
  induction new generalizing entries with
  | nil => exact List.prefix_refl _
  | cons first rest ih =>
    obtain ⟨key, value⟩ := first
    rw [addMissing_cons]
    refine List.IsPrefix.trans ?_ (ih _)
    split
    · exact List.prefix_refl _
    · exact List.prefix_append _ _

end Entries

theorem appendNew_cons (own : List String) (name : String) (rest : List String) :
    appendNew own (name :: rest) =
      appendNew (if own.contains name then own else own ++ [name]) rest :=
  rfl

theorem mem_appendNew {own new : List String} {name : String} :
    name ∈ appendNew own new ↔ name ∈ own ∨ name ∈ new := by
  induction new generalizing own with
  | nil => simp [appendNew]
  | cons first rest ih =>
    rw [appendNew_cons, ih]
    split
    · rename_i hfirst
      have hfirst := List.contains_iff_mem.1 hfirst
      grind
    · grind

theorem appendNew_append (own first rest : List String) :
    appendNew own (first ++ rest) = appendNew (appendNew own first) rest :=
  List.foldl_append

theorem appendNew_assoc (own new more : List String) :
    appendNew (appendNew own new) more = appendNew own (appendNew new more) := by
  induction more generalizing new with
  | nil => rfl
  | cons first rest ih =>
    rw [appendNew_cons, appendNew_cons, ← ih]
    by_cases hnew : first ∈ new
    · have hboth : first ∈ appendNew own new := mem_appendNew.2 (.inr hnew)
      rw [if_pos (List.contains_iff_mem.2 hboth), if_pos (List.contains_iff_mem.2 hnew)]
    · rw [if_neg (mt List.contains_iff_mem.1 hnew), appendNew_append, appendNew_cons]
      rfl

theorem uniteRequired_assoc (a b c : Option (List String)) :
    uniteRequired (uniteRequired a b) c = uniteRequired a (uniteRequired b c) := by
  cases c with
  | none => rfl
  | some new =>
    cases b with
    | none =>
      -- nothing lies between, so the new names are only cleared of repetitions once more
      have h := appendNew_assoc (a.getD []) [] new
      exact congrArg some h
    | some names => exact congrArg some (appendNew_assoc _ _ _)

theorem fillTable_assoc {α : Type} (a b c : Option (Entries α)) :
    fillTable (fillTable a b) c = fillTable a (fillTable b c) := by
  cases c with
  | none => rfl
  | some new =>
    cases b with
    | none => exact congrArg some (Entries.addMissing_assoc (a.getD []) [] new)
    | some entries => exact congrArg some (Entries.addMissing_assoc _ _ _)

theorem Keywords.fillAbsent_assoc (a b c : Keywords) :
    (a.fillAbsent b).fillAbsent c = a.fillAbsent (b.fillAbsent c) := by
  simp only [Keywords.fillAbsent, Option.or_assoc, uniteRequired_assoc]

namespace Schema

/-- Filling from two schemas, the first of which wins, is filling from the first filled from the
second. -/
theorem fillAbsent_assoc (a b c : Schema) :
    (a.fillAbsent b).fillAbsent c = a.fillAbsent (b.fillAbsent c) := by
  simp only [fillAbsent, Keywords.fillAbsent_assoc, fillTable_assoc, Option.or_assoc]

end Schema

end SchemaCatalog
