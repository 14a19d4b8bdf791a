import SchemaCatalog.Proofs.Schema.Composition
import SchemaCatalog.Proofs.Schema.Merging
import Mathlib.Data.List.Nodup

namespace SchemaCatalog

theorem appendNew_of_subset {own new : List String} (h : ∀ name ∈ new, name ∈ own) :
    appendNew own new = own := by
  induction new with
  | nil => rfl
  | cons name rest ih =>
    have hname : name ∈ own := h name List.mem_cons_self
    rw [appendNew_cons, if_pos (List.contains_iff_mem.2 hname)]
    exact ih fun name hname => h name (List.mem_cons_of_mem _ hname)

theorem appendNew_self (own new : List String) :
    appendNew (appendNew own new) new = appendNew own new := by
  apply appendNew_of_subset
  intro name hname
  exact mem_appendNew.2 (.inr hname)

theorem nodup_appendNew {own : List String} (h : own.Nodup) (new : List String) :
    (appendNew own new).Nodup := by
  rw [appendNew_eq]
  refine List.nodup_append.2 ⟨h, (nodup_eraseDups new).filter _, ?_⟩
  intro a ha b hb heq
  subst heq
  simpa [ha] using (List.mem_filter.1 hb).2

theorem uniteRequired_self (own source : Option (List String)) :
    uniteRequired (uniteRequired own source) source = uniteRequired own source := by
  cases source with
  | none => rfl
  | some new => exact congrArg some (appendNew_self (own.getD []) new)

/-- The same names are listed, in whatever order and however often. -/
def SameNames (names names' : List String) : Prop := ∀ name, name ∈ names ↔ name ∈ names'

theorem uniteRequired_comm (own source : Option (List String)) :
    Option.Rel SameNames (uniteRequired own source) (uniteRequired source own) := by
  cases own with
  | none =>
    cases source with
    | none => exact .none
    | some new =>
      apply Option.Rel.some
      intro name
      simp [mem_appendNew]
  | some names =>
    cases source with
    | none =>
      apply Option.Rel.some
      intro name
      simp [mem_appendNew]
    | some new =>
      apply Option.Rel.some
      intro name
      simp [mem_appendNew, or_comm]

namespace Entries

variable {α : Type} {entries other new : Entries α}

theorem keys_addMissing (entries new : Entries α) :
    keys (entries.addMissing new) = appendNew entries.keys new.keys := by
  induction new generalizing entries with
  | nil => rfl
  | cons entry rest ih =>
    obtain ⟨key, value⟩ := entry
    rw [addMissing_cons, ih, keys_cons, appendNew_cons, has_eq_contains]
    split
    · rfl
    · rw [keys, List.map_append]
      rfl

theorem addMissing_self (entries new : Entries α) :
    (entries.addMissing new).addMissing new = entries.addMissing new := by
  have hall (more : Entries α) (h : ∀ key ∈ more.keys, (entries.addMissing new).has key = true) :
      (entries.addMissing new).addMissing more = entries.addMissing new := by
    induction more with
    | nil => rfl
    | cons entry rest ih =>
      obtain ⟨key, value⟩ := entry
      rw [addMissing_cons, if_pos (h key List.mem_cons_self)]
      exact ih fun key hkey => h key (List.mem_cons_of_mem _ hkey)
  apply hall
  intro key hkey
  rw [has_addMissing, has_eq_contains new, List.contains_iff_mem.2 hkey, Bool.or_true]

theorem lookup_of_mem {key : String} {value : α} (h : entries.keys.Nodup)
    (hentry : (key, value) ∈ entries) : entries.lookup key = some value := by
  induction entries with
  | nil => cases hentry
  | cons entry rest ih =>
    obtain ⟨k, v⟩ := entry
    obtain ⟨hk, hrest⟩ := List.nodup_cons.1 h
    rw [lookup_cons]
    cases List.mem_cons.1 hentry with
    | inl heq =>
      cases heq
      exact if_pos rfl
    | inr hentry =>
      have hne : key ≠ k := by
        intro heq
        exact hk (heq ▸ List.mem_map.2 ⟨(key, value), hentry, rfl⟩)
      rw [if_neg hne]
      exact ih hrest hentry

theorem mem_iff_lookup (h : entries.keys.Nodup) (entry : String × α) :
    entry ∈ entries ↔ entries.lookup entry.1 = some entry.2 :=
  ⟨lookup_of_mem h, mem_of_lookup⟩

theorem lookup_reverse (h : entries.keys.Nodup) (key : String) :
    entries.reverse.lookup key = entries.lookup key := by
  have hreverse : keys entries.reverse = entries.keys.reverse := List.map_reverse
  have hnodup : (keys entries.reverse).Nodup := hreverse ▸ List.nodup_reverse.2 h
  apply Option.ext
  intro value
  rw [← mem_iff_lookup hnodup (key, value), ← mem_iff_lookup h (key, value), List.mem_reverse]

theorem eq_of_lookup (h : entries.keys.Nodup) (hkeys : entries.keys = other.keys)
    (hlookup : ∀ key, entries.lookup key = other.lookup key) : entries = other := by
  calc
    entries = entries.keys.filterMap fun key => (entries.lookup key).map (key, ·) :=
      eq_filterMap_keys h
    _ = other.keys.filterMap fun key => (other.lookup key).map (key, ·) := by
      simp only [hkeys, hlookup]
    _ = other := (eq_filterMap_keys (hkeys ▸ h)).symm

theorem perm_of_lookup (h : entries.keys.Nodup) (h' : other.keys.Nodup)
    (hlookup : ∀ key, entries.lookup key = other.lookup key) : List.Perm entries other := by
  apply (List.perm_ext_iff_of_nodup (List.Nodup.of_map _ h) (List.Nodup.of_map _ h')).2
  intro entry
  rw [mem_iff_lookup h, mem_iff_lookup h', hlookup]

theorem nodup_putAll (h : entries.keys.Nodup) (new : Entries α) :
    (entries.putAll new).keys.Nodup := by
  rw [keys_putAll]
  exact nodup_appendNew h _

theorem nodup_addMissing (h : entries.keys.Nodup) (new : Entries α) :
    (entries.addMissing new).keys.Nodup := by
  rw [keys_addMissing]
  exact nodup_appendNew h _

theorem putAll_assoc (h : entries.keys.Nodup) (hnew : new.keys.Nodup) (more : Entries α) :
    (entries.putAll new).putAll more = entries.putAll (new.putAll more) := by
  apply eq_of_lookup (nodup_putAll (nodup_putAll h new) more)
  · simp only [keys_putAll, appendNew_assoc]
  · intro key
    rw [lookup_putAll, lookup_putAll, lookup_putAll, lookup_reverse (nodup_putAll hnew more),
      lookup_putAll, lookup_reverse hnew, Option.or_assoc]

theorem putAll_self (h : entries.keys.Nodup) (new : Entries α) :
    (entries.putAll new).putAll new = entries.putAll new := by
  apply eq_of_lookup (nodup_putAll (nodup_putAll h new) new)
  · simp only [keys_putAll, appendNew_self]
  · intro key
    rw [lookup_putAll, lookup_putAll, ← Option.or_assoc, Option.or_self]

theorem putAll_perm_addMissing (h : entries.keys.Nodup) (hnew : new.keys.Nodup) :
    List.Perm (entries.putAll new) (new.addMissing entries) := by
  apply perm_of_lookup (nodup_putAll h new) (nodup_addMissing hnew entries)
  intro key
  rw [lookup_putAll, lookup_addMissing_eq, lookup_reverse hnew]

end Entries

section Tables

variable {α : Type} {own source : Option (Entries α)}

/-- The keys of a table, if there is one, are distinct. -/
def DistinctTable (table : Option (Entries α)) : Prop := (table.getD []).keys.Nodup

instance (table : Option (Entries α)) : Decidable (DistinctTable table) :=
  inferInstanceAs (Decidable (table.getD []).keys.Nodup)

theorem fillTable_self (own source : Option (Entries α)) :
    fillTable (fillTable own source) source = fillTable own source := by
  cases source with
  | none => rfl
  | some new => exact congrArg some (Entries.addMissing_self _ new)

theorem overwriteTable_self (h : DistinctTable own) (source : Option (Entries α)) :
    overwriteTable (overwriteTable own source) source = overwriteTable own source := by
  cases source with
  | none => rfl
  | some new => exact congrArg some (Entries.putAll_self h new)

theorem overwriteTable_assoc (h : DistinctTable own) (hsource : DistinctTable source)
    (more : Option (Entries α)) :
    overwriteTable (overwriteTable own source) more =
      overwriteTable own (overwriteTable source more) := by
  cases more with
  | none => rfl
  | some entries =>
    cases source with
    | none =>
      have hempty : (Entries.keys ([] : Entries α)).Nodup := List.nodup_nil
      exact congrArg some (Entries.putAll_assoc h hempty entries)
    | some new => exact congrArg some (Entries.putAll_assoc h hsource entries)

theorem overwriteTable_perm_fillTable (h : DistinctTable own) (hsource : DistinctTable source) :
    Option.Rel List.Perm (overwriteTable own source) (fillTable source own) := by
  cases own with
  | none =>
    cases source with
    | none => exact .none
    | some new => exact .some (Entries.putAll_perm_addMissing h hsource)
  | some entries =>
    cases source with
    | none =>
      -- nothing is written over the table, and filling an empty one from it copies it
      have hempty : (Entries.keys ([] : Entries α)).Nodup := hsource
      exact .some (Entries.putAll_perm_addMissing h hempty)
    | some new => exact .some (Entries.putAll_perm_addMissing h hsource)

end Tables

theorem Keywords.fillAbsent_self (own source : Keywords) :
    (own.fillAbsent source).fillAbsent source = own.fillAbsent source := by
  simp only [Keywords.fillAbsent, Option.or_assoc, Option.or_self, uniteRequired_self]

namespace Schema

/-- The keys of each table of the node are distinct, as they are in tables that were written key by
key. Merging keeps them so. -/
structure DistinctKeys (s : Schema) : Prop where
  properties : DistinctTable s.properties
  patternProperties : DistinctTable s.patternProperties
  definitions : DistinctTable s.definitions

/-- The same keywords with the same values, but for the order of the keys in a table and for the
order and the repetition of required names. -/
structure Agrees (s t : Schema) : Prop where
  keywords : { s.keywords with required := none } = { t.keywords with required := none }
  required : Option.Rel SameNames s.keywords.required t.keywords.required
  properties : Option.Rel List.Perm s.properties t.properties
  patternProperties : Option.Rel List.Perm s.patternProperties t.patternProperties
  definitions : Option.Rel List.Perm s.definitions t.definitions
  items : s.items = t.items
  additionalProperties : s.additionalProperties = t.additionalProperties
  allOf : s.allOf = t.allOf
  anyOf : s.anyOf = t.anyOf
  oneOf : s.oneOf = t.oneOf
  not : s.not = t.not

variable {a b c : Schema}

theorem fillAbsent_self (a b : Schema) : (a.fillAbsent b).fillAbsent b = a.fillAbsent b := by
  simp only [fillAbsent, Keywords.fillAbsent_self, fillTable_self, Option.or_assoc, Option.or_self]

theorem fillAbsent_empty (a : Schema) : a.fillAbsent {} = a := by
  cases a
  simp only [fillAbsent, Keywords.fillAbsent, uniteRequired, fillTable, Option.or_none]

theorem overwriteFrom_assoc (ha : a.DistinctKeys) (hb : b.DistinctKeys) (c : Schema) :
    (a.overwriteFrom b).overwriteFrom c = a.overwriteFrom (b.overwriteFrom c) := by
  simp only [overwriteFrom, fillAbsent, Keywords.fillAbsent, Option.or_assoc, uniteRequired_assoc,
    overwriteTable_assoc ha.properties hb.properties,
    overwriteTable_assoc ha.patternProperties hb.patternProperties,
    overwriteTable_assoc ha.definitions hb.definitions]

theorem overwriteFrom_self (ha : a.DistinctKeys) (b : Schema) :
    (a.overwriteFrom b).overwriteFrom b = a.overwriteFrom b := by
  have hor {α : Type} (x y : Option α) : x.or (x.or y) = x.or y := by
    rw [← Option.or_assoc, Option.or_self]
  simp only [overwriteFrom, fillAbsent, Keywords.fillAbsent, hor, uniteRequired_self,
    overwriteTable_self ha.properties, overwriteTable_self ha.patternProperties,
    overwriteTable_self ha.definitions]

theorem overwriteFrom_empty (a : Schema) : a.overwriteFrom {} = a := by
  cases a
  simp only [overwriteFrom, fillAbsent, Keywords.fillAbsent, uniteRequired, overwriteTable,
    Option.none_or]

theorem overwriteFrom_agrees (ha : a.DistinctKeys) (hb : b.DistinctKeys) :
    Agrees (a.overwriteFrom b) (b.fillAbsent a) where
  keywords := rfl
  required := uniteRequired_comm _ _
  properties := overwriteTable_perm_fillTable ha.properties hb.properties
  patternProperties := overwriteTable_perm_fillTable ha.patternProperties hb.patternProperties
  definitions := overwriteTable_perm_fillTable ha.definitions hb.definitions
  items := rfl
  additionalProperties := rfl
  allOf := rfl
  anyOf := rfl
  oneOf := rfl
  not := rfl

/-- Both ways of merging are associative, do nothing the second time and nothing with the empty
schema; and overwriting the one from the other is filling the other from the one. -/
theorem merging_laws (ha : a.DistinctKeys) (hb : b.DistinctKeys) (c : Schema) :
    (a.fillAbsent b).fillAbsent c = a.fillAbsent (b.fillAbsent c) ∧
      (a.fillAbsent b).fillAbsent b = a.fillAbsent b ∧
      a.fillAbsent {} = a ∧
      (a.overwriteFrom b).overwriteFrom c = a.overwriteFrom (b.overwriteFrom c) ∧
      (a.overwriteFrom b).overwriteFrom b = a.overwriteFrom b ∧
      a.overwriteFrom {} = a ∧
      Agrees (a.overwriteFrom b) (b.fillAbsent a) :=
  ⟨fillAbsent_assoc a b c, fillAbsent_self a b, fillAbsent_empty a, overwriteFrom_assoc ha hb c,
    overwriteFrom_self ha b, overwriteFrom_empty a, overwriteFrom_agrees ha hb⟩

def account : Schema :=
  { keywords := { required := some ["id", "name"] }
    properties := some [("id", {}), ("name", {})]
    definitions := some [] }

def audited : Schema :=
  { keywords := { title := some "Audited", required := some ["name", "at", "at"] }
    properties := some [("at", {}), ("id", { keywords := { title := some "Key" } })]
    patternProperties := some [("^x-", {})] }

/-- The two tables differ in the order of their keys, and the two lists in length. -/
theorem merging_laws_account : account.DistinctKeys ∧ audited.DistinctKeys ∧
    ((account.overwriteFrom audited).properties.map Entries.keys = some ["id", "name", "at"] ∧
      (audited.fillAbsent account).properties.map Entries.keys = some ["at", "id", "name"] ∧
      (account.overwriteFrom audited).keywords.required = some ["id", "name", "at"] ∧
      (audited.fillAbsent account).keywords.required = some ["name", "at", "at", "id"]) ∧
    (account.fillAbsent audited).fillAbsent {} = account.fillAbsent (audited.fillAbsent {}) ∧
    (account.fillAbsent audited).fillAbsent audited = account.fillAbsent audited ∧
    account.fillAbsent {} = account ∧
    (account.overwriteFrom audited).overwriteFrom {} =
      account.overwriteFrom (audited.overwriteFrom {}) ∧
    (account.overwriteFrom audited).overwriteFrom audited = account.overwriteFrom audited ∧
    account.overwriteFrom {} = account ∧
    Agrees (account.overwriteFrom audited) (audited.fillAbsent account) := by
  have haccount : account.DistinctKeys := ⟨by decide, by decide, by decide⟩
  have haudited : audited.DistinctKeys := ⟨by decide, by decide, by decide⟩
  refine ⟨haccount, haudited, ?_, merging_laws haccount haudited {}⟩
  and_intros <;> decide

end Schema

end SchemaCatalog
