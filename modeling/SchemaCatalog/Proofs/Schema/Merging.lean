import SchemaCatalog.Proofs.Schema.Alike
import SchemaCatalog.Proofs.Schema.Filling

namespace SchemaCatalog

theorem mem_of_lookup {α : Type} {entries : Entries α} {key : String} {value : α}
    (h : entries.lookup key = some value) : (key, value) ∈ entries := by
  induction entries with
  | nil => cases h
  | cons entry rest ih =>
    obtain ⟨k, v⟩ := entry
    rw [Entries.lookup_cons] at h
    split at h
    · rename_i hk
      cases h
      rw [hk]
      exact List.mem_cons_self
    · exact List.mem_cons_of_mem _ (ih h)

namespace Entries

variable {α : Type}

theorem mem_addMissing {entries new : Entries α} {e : String × α}
    (h : e ∈ entries.addMissing new) : e ∈ entries ∨ e ∈ new := by
  rw [addMissing] at h
  induction new generalizing entries with
  | nil => exact .inl h
  | cons first rest ih =>
    obtain ⟨key, value⟩ := first
    rw [List.foldl_cons] at h
    cases ih h with
    | inr h => exact .inr (List.mem_cons_of_mem _ h)
    | inl h =>
      dsimp only at h
      split at h
      · exact .inl h
      · cases List.mem_append.1 h with
        | inl h => exact .inl h
        | inr h => exact .inr (List.mem_singleton.1 h ▸ List.mem_cons_self)

theorem lookup_addMissing {entries : Entries α} {key : String} {value : α}
    (h : entries.lookup key = some value) (new : Entries α) :
    (entries.addMissing new).lookup key = some value := by
  rw [lookup_addMissing_eq, h, Option.some_or]

theorem mem_put {entries : Entries α} {key : String} {value : α} {e : String × α}
    (h : e ∈ entries.put key value) : e ∈ entries ∨ e = (key, value) := by
  induction entries with
  | nil => exact .inr (List.mem_singleton.1 h)
  | cons first rest ih =>
    obtain ⟨k, v⟩ := first
    rw [put] at h
    split at h
    · rename_i hk
      cases h with
      | head => exact .inr (by rw [eq_of_beq hk])
      | tail _ h => exact .inl (List.mem_cons_of_mem _ h)
    · cases h with
      | head => exact .inl List.mem_cons_self
      | tail _ h =>
        cases ih h with
        | inl h => exact .inl (List.mem_cons_of_mem _ h)
        | inr h => exact .inr h

theorem mem_putAll {entries new : Entries α} {e : String × α} (h : e ∈ entries.putAll new) :
    e ∈ entries ∨ e ∈ new := by
  rw [putAll] at h
  induction new generalizing entries with
  | nil => exact .inl h
  | cons first rest ih =>
    obtain ⟨key, value⟩ := first
    rw [List.foldl_cons] at h
    cases ih h with
    | inr h => exact .inr (List.mem_cons_of_mem _ h)
    | inl h =>
      cases mem_put h with
      | inl h => exact .inl h
      | inr h => exact .inr (h ▸ List.mem_cons_self)

end Entries

theorem mem_fillTable {α : Type} {own source : Option (Entries α)} {table e}
    (h : fillTable own source = some table) (he : e ∈ table) :
    (∃ table, own = some table ∧ e ∈ table) ∨ ∃ table, source = some table ∧ e ∈ table := by
  cases source with
  | none => exact .inl ⟨table, h, he⟩
  | some new =>
    cases h
    cases Entries.mem_addMissing he with
    | inr he => exact .inr ⟨new, rfl, he⟩
    | inl he =>
      cases own with
      | none => cases he
      | some entries => exact .inl ⟨entries, rfl, he⟩

theorem mem_overwriteTable {α : Type} {own source : Option (Entries α)} {table e}
    (h : overwriteTable own source = some table) (he : e ∈ table) :
    (∃ table, own = some table ∧ e ∈ table) ∨ ∃ table, source = some table ∧ e ∈ table := by
  cases source with
  | none => exact .inl ⟨table, h, he⟩
  | some new =>
    cases h
    cases Entries.mem_putAll he with
    | inr he => exact .inr ⟨new, rfl, he⟩
    | inl he =>
      cases own with
      | none => cases he
      | some entries => exact .inl ⟨entries, rfl, he⟩

theorem or_eq_some {α : Type} {a b : Option α} {x : α} (h : a.or b = some x) :
    a = some x ∨ b = some x := by
  cases a with
  | none => exact .inr h
  | some y => exact .inl h

theorem mem_getD_nil {α : Type} {list : Option (List α)} {a : α} (h : a ∈ list.getD []) :
    ∃ members, list = some members ∧ a ∈ members := by
  cases list with
  | none => cases h
  | some members => exact ⟨members, rfl, h⟩

namespace Schema

/-- What stands below a filled schema stood below it before or below the source. -/
theorem child_fillAbsent {c a b : Schema} (h : Child c (a.fillAbsent b)) :
    Child c a ∨ Child c b := by
  cases h with
  | property hs hc =>
    exact (mem_fillTable hs hc).imp (fun ⟨_, hs, hc⟩ => .property hs hc)
      fun ⟨_, hs, hc⟩ => .property hs hc
  | pattern hs hc =>
    exact (mem_fillTable hs hc).imp (fun ⟨_, hs, hc⟩ => .pattern hs hc)
      fun ⟨_, hs, hc⟩ => .pattern hs hc
  | definition hs hc =>
    exact (mem_fillTable hs hc).imp (fun ⟨_, hs, hc⟩ => .definition hs hc)
      fun ⟨_, hs, hc⟩ => .definition hs hc
  | item hs => exact (or_eq_some hs).imp .item .item
  | position hs hc => exact (or_eq_some hs).imp (.position · hc) (.position · hc)
  | additional hs => exact (or_eq_some hs).imp .additional .additional
  | allOf hs hc => exact (or_eq_some hs).imp (.allOf · hc) (.allOf · hc)
  | anyOf hs hc => exact (or_eq_some hs).imp (.anyOf · hc) (.anyOf · hc)
  | oneOf hs hc => exact (or_eq_some hs).imp (.oneOf · hc) (.oneOf · hc)
  | not hs => exact (or_eq_some hs).imp .not .not

theorem child_overwriteFrom {c a b : Schema} (h : Child c (a.overwriteFrom b)) :
    Child c a ∨ Child c b := by
  cases h with
  | property hs hc =>
    exact (mem_overwriteTable hs hc).imp (fun ⟨_, hs, hc⟩ => .property hs hc)
      fun ⟨_, hs, hc⟩ => .property hs hc
  | pattern hs hc =>
    exact (mem_overwriteTable hs hc).imp (fun ⟨_, hs, hc⟩ => .pattern hs hc)
      fun ⟨_, hs, hc⟩ => .pattern hs hc
  | definition hs hc =>
    exact (mem_overwriteTable hs hc).imp (fun ⟨_, hs, hc⟩ => .definition hs hc)
      fun ⟨_, hs, hc⟩ => .definition hs hc
  | item hs => exact (or_eq_some hs).symm.imp .item .item
  | position hs hc => exact (or_eq_some hs).symm.imp (.position · hc) (.position · hc)
  | additional hs => exact (or_eq_some hs).symm.imp .additional .additional
  | allOf hs hc => exact (or_eq_some hs).symm.imp (.allOf · hc) (.allOf · hc)
  | anyOf hs hc => exact (or_eq_some hs).symm.imp (.anyOf · hc) (.anyOf · hc)
  | oneOf hs hc => exact (or_eq_some hs).symm.imp (.oneOf · hc) (.oneOf · hc)
  | not hs => exact (or_eq_some hs).symm.imp .not .not

theorem child_clearReference {c s : Schema} : Child c s.clearReference ↔ Child c s :=
  child_keywords_iff

section

variable {R : Schema → Schema → Prop}

theorem AlikeTable.has {as bs : List (String × Schema)} (h : AlikeTable R as bs) (key : String) :
    Entries.has as key = Entries.has bs key := by
  unfold Entries.has
  induction h with
  | nil => rfl
  | @cons a b _ _ hab _ ih =>
    obtain ⟨ka, a⟩ := a
    obtain ⟨kb, b⟩ := b
    cases hab.1
    rw [Entries.lookup_cons, Entries.lookup_cons]
    split
    · rfl
    · exact ih

theorem AlikeTable.addMissing {as bs : List (String × Schema)} (h : AlikeTable R as bs)
    (hR : ∀ a, R a a) (new : List (String × Schema)) :
    AlikeTable R (Entries.addMissing as new) (Entries.addMissing bs new) := by
  unfold Entries.addMissing
  induction new generalizing as bs with
  | nil => exact h
  | cons first rest ih =>
    obtain ⟨key, value⟩ := first
    rw [List.foldl_cons, List.foldl_cons]
    refine ih ?_
    dsimp only
    rw [h.has]
    split
    · exact h
    · exact List.rel_append h (.cons ⟨rfl, hR value⟩ .nil)

theorem alikeTable_refl (hR : ∀ a, R a a) (table : List (String × Schema)) :
    AlikeTable R table table :=
  List.forall₂_same.2 fun a _ => ⟨rfl, hR a.2⟩

theorem alikeItems_refl (hR : ∀ a, R a a) (items : Items Schema) : AlikeItems R items items := by
  cases items with
  | single s => exact .single (hR s)
  | tuple list => exact .tuple (List.forall₂_same.2 fun a _ => hR a)

theorem alikeAdditional_refl (hR : ∀ a, R a a) (additional : Additional Schema) :
    AlikeAdditional R additional additional := by
  cases additional with
  | allowed verdict => exact .allowed
  | schema s => exact .schema (hR s)

theorem alike_fillTable {as bs : Option (List (String × Schema))}
    (h : Option.Rel (AlikeTable R) as bs) (hR : ∀ a, R a a)
    (source : Option (List (String × Schema))) :
    Option.Rel (AlikeTable R) (fillTable as source) (fillTable bs source) := by
  cases source with
  | none => exact h
  | some new =>
    cases h with
    | none => exact .some (alikeTable_refl hR _)
    | some h => exact .some (h.addMissing hR new)

theorem optionRel_or {α : Type} {S : α → α → Prop} {a b : Option α} (h : Option.Rel S a b)
    (hS : ∀ x, S x x) (source : Option α) : Option.Rel S (a.or source) (b.or source) := by
  cases h with
  | none => exact optionRel_refl hS source
  | some h => exact .some h

theorem Alike.clearReference {s t : Schema} (h : Alike R s t) :
    Alike R s.clearReference t.clearReference :=
  { h with keywords := by rw [Schema.clearReference, Schema.clearReference, h.keywords] }

theorem Alike.fillAbsent {s t : Schema} (h : Alike R s t) (hR : ∀ a, R a a) (source : Schema) :
    Alike R (s.fillAbsent source) (t.fillAbsent source) where
  keywords := by rw [Schema.fillAbsent, Schema.fillAbsent, h.keywords]
  properties := alike_fillTable h.properties hR _
  patternProperties := alike_fillTable h.patternProperties hR _
  definitions := alike_fillTable h.definitions hR _
  items := optionRel_or h.items (alikeItems_refl hR) _
  additionalProperties := optionRel_or h.additionalProperties (alikeAdditional_refl hR) _
  allOf := optionRel_or h.allOf (fun _ => List.forall₂_same.2 fun a _ => hR a) _
  anyOf := optionRel_or h.anyOf (fun _ => List.forall₂_same.2 fun a _ => hR a) _
  oneOf := optionRel_or h.oneOf (fun _ => List.forall₂_same.2 fun a _ => hR a) _
  not := optionRel_or h.not hR _

end

end Schema

end SchemaCatalog
