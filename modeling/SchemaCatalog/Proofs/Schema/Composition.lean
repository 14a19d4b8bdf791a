import SchemaCatalog.Proofs.Schema.Filling
import SchemaCatalog.Proofs.Steps
import Mathlib.Data.List.Basic
import Mathlib.Data.List.Induction

namespace SchemaCatalog

theorem appendNew_eq (own new : List String) :
    appendNew own new = own ++ new.eraseDups.filter fun name => !own.contains name := by
  induction new using List.reverseRecOn with
  | nil => simp [appendNew]
  | append_singleton front name ih =>
    have hlast : appendNew own (front ++ [name]) =
        if (appendNew own front).contains name then appendNew own front
        else appendNew own front ++ [name] := appendNew_append own front [name]
    rw [hlast, eraseDups_concat]
    have hmem : name ∈ appendNew own front ↔ name ∈ own ∨ name ∈ front := mem_appendNew
    by_cases hown : name ∈ own
    · rw [if_pos (List.contains_iff_mem.2 (hmem.2 (.inl hown))), ih]
      split
      · rfl
      · simp [hown]
    · by_cases hfront : name ∈ front
      · rw [if_pos (List.contains_iff_mem.2 (hmem.2 (.inr hfront))), if_pos hfront, ih]
      · have hnew : ¬ (appendNew own front).contains name = true := by
          rw [List.contains_iff_mem, hmem]
          exact not_or.2 ⟨hown, hfront⟩
        rw [if_neg hnew, if_neg hfront, ih]
        simp [hown]

namespace Entries

variable {α : Type}

def collected (entries : Entries α) : Entries α :=
  entries.keys.eraseDups.filterMap fun key => (entries.reverse.lookup key).map (key, ·)

theorem putAll_concat (entries front : Entries α) (key : String) (value : α) :
    entries.putAll (front ++ [(key, value)]) = (entries.putAll front).put key value :=
  List.foldl_append

theorem putAll_append (entries first rest : Entries α) :
    entries.putAll (first ++ rest) = (entries.putAll first).putAll rest :=
  List.foldl_append

theorem keys_putAll (entries new : Entries α) :
    keys (entries.putAll new) = appendNew entries.keys new.keys := by
  induction new generalizing entries with
  | nil => rfl
  | cons entry rest ih =>
    obtain ⟨key, value⟩ := entry
    have hput : entries.putAll ((key, value) :: rest) = (entries.put key value).putAll rest := rfl
    rw [hput, ih, keys_put, keys_cons, appendNew_cons]
    simp only [List.contains_iff_mem]

theorem lookup_putAll (entries new : Entries α) (key : String) :
    (entries.putAll new).lookup key = (new.reverse.lookup key).or (entries.lookup key) := by
  induction new using List.reverseRecOn with
  | nil => rfl
  | append_singleton front entry ih =>
    obtain ⟨k, value⟩ := entry
    rw [putAll_concat, lookup_put, ih, List.reverse_concat, lookup_cons]
    split <;> rfl

theorem keys_distinct (entries : Entries α) : keys entries.distinct = entries.keys.eraseDups := by
  rw [distinct, keys_putAll, appendNew_eq]
  simp

theorem lookup_distinct (entries : Entries α) (key : String) :
    entries.distinct.lookup key = entries.reverse.lookup key :=
  (lookup_putAll [] entries key).trans Option.or_none

theorem eq_filterMap_keys {entries : Entries α} (h : entries.keys.Nodup) :
    entries = entries.keys.filterMap fun key => (entries.lookup key).map (key, ·) := by
  induction entries with
  | nil => rfl
  | cons entry rest ih =>
    obtain ⟨key, value⟩ := entry
    obtain ⟨hkey, hrest⟩ := List.nodup_cons.1 h
    have hsame : (keys rest).filterMap
        (fun k => (List.lookup k ((key, value) :: rest)).map (k, ·)) =
        (keys rest).filterMap fun k => (rest.lookup k).map (k, ·) := by
      apply List.filterMap_congr
      intro k hk
      have hne : k ≠ key := by
        intro heq
        exact hkey (heq ▸ hk)
      rw [lookup_cons, if_neg hne]
    rw [keys_cons, List.filterMap_cons, hsame, ← ih hrest, lookup_cons, if_pos rfl]
    rfl

theorem distinct_eq_collected (entries : Entries α) : entries.distinct = entries.collected := by
  have hnodup : entries.distinct.keys.Nodup := by
    rw [keys_distinct]
    exact nodup_eraseDups _
  rw [eq_filterMap_keys hnodup, keys_distinct]
  simp only [lookup_distinct]
  rfl

theorem addMissing_eq_append {entries new : Entries α} (h : new.keys.Nodup) :
    entries.addMissing new = entries ++ new.filter fun e => !entries.has e.1 := by
  induction new generalizing entries with
  | nil => exact (List.append_nil entries).symm
  | cons entry rest ih =>
    obtain ⟨key, value⟩ := entry
    obtain ⟨hkey, hrest⟩ := List.nodup_cons.1 h
    rw [addMissing_cons, ih hrest]
    cases hhas : entries.has key with
    | true => simp [hhas]
    | false =>
      have hfilter : rest.filter (fun e => !has (entries ++ [(key, value)]) e.1) =
          rest.filter fun e => !entries.has e.1 := by
        apply List.filter_congr
        intro e he
        have hne : e.1 ≠ key := by
          intro heq
          exact hkey (List.mem_map.2 ⟨e, he, heq⟩)
        have hlast : has [(key, value)] e.1 = false := by simp [has, lookup_cons, hne]
        rw [has_append, hlast, Bool.or_false]
      simp [hhas, hfilter]

end Entries

def lastOf {α β : Type} (f : β → Option α) (members : List β) : Option α :=
  members.reverse.findSome? f

/-- The table of an owner with those of its members: its own entries, then those of the other keys
in order of first appearance, each with its last value among the members. -/
def composedTable {α : Type} (own : Option (Entries α)) (members : List (Entries α)) :
    Option (Entries α) :=
  match members with
  | [] => own
  | _ => some (own.getD [] ++ (Entries.collected members.flatten).filter fun e =>
      !(own.getD []).has e.1)

/-- The names that an owner requires, then the other ones that its members require. -/
def composedRequired (own : Option (List String)) (members : List (List String)) :
    Option (List String) :=
  match members with
  | [] => own
  | _ => some (own.getD [] ++ members.flatten.eraseDups.filter fun name =>
      !(own.getD []).contains name)

theorem foldl_or {α β : Type} (f : β → Option α) (own : Option α) (members : List β) :
    members.foldl (fun value member => (f member).or value) own = (lastOf f members).or own := by
  induction members generalizing own with
  | nil => rfl
  | cons member rest ih =>
    rw [List.foldl_cons, ih, lastOf, lastOf, List.reverse_cons, List.findSome?_append,
      List.findSome?_singleton, Option.or_assoc]

/-- A keyword that holds a list takes in what another schema holds there. -/
def takeIn {α : Type} (add : List α → List α → List α) (own source : Option (List α)) :
    Option (List α) :=
  match source with
  | none => own
  | some new => some (add (own.getD []) new)

theorem overwriteTable_eq {α : Type} :
    overwriteTable = takeIn (Entries.putAll : Entries α → Entries α → Entries α) := by
  funext own source
  cases source <;> rfl

theorem uniteRequired_eq : uniteRequired = takeIn appendNew := by
  funext own source
  cases source <;> rfl

theorem foldl_takeIn {α : Type} {add : List α → List α → List α}
    (hadd : ∀ a b c, add a (b ++ c) = add (add a b) c) (own : Option (List α))
    (sources : List (Option (List α))) :
    sources.foldl (takeIn add) own =
      match sources.filterMap id with
      | [] => own
      | new => some (add (own.getD []) new.flatten) := by
  induction sources generalizing own with
  | nil => rfl
  | cons source rest ih =>
    rw [List.foldl_cons, ih]
    cases source with
    | none => rfl
    | some new =>
      have hfirst : (some new :: rest).filterMap id = new :: rest.filterMap id := rfl
      rw [hfirst]
      cases rest.filterMap id with
      | nil => simp only [takeIn, List.flatten_cons, List.flatten_nil, List.append_nil]
      | cons second more => simp only [takeIn, List.flatten_cons, hadd, Option.getD_some]

theorem fillTable_foldl {α : Type} (own : Option (Entries α)) (tables : List (Option (Entries α))) :
    fillTable own (tables.foldl overwriteTable none) = composedTable own (tables.filterMap id) := by
  rw [overwriteTable_eq, foldl_takeIn Entries.putAll_append]
  cases tables.filterMap id with
  | nil => rfl
  | cons first rest =>
    have hdistinct := Entries.distinct_eq_collected (first :: rest).flatten
    have hnodup : (Entries.collected (first :: rest).flatten).keys.Nodup := by
      rw [← hdistinct, Entries.keys_distinct]
      exact nodup_eraseDups _
    change some (Entries.addMissing (own.getD []) (Entries.distinct (first :: rest).flatten)) = _
    rw [hdistinct, Entries.addMissing_eq_append hnodup]
    rfl

theorem uniteRequired_foldl (own : Option (List String)) (lists : List (Option (List String))) :
    uniteRequired own (lists.foldl uniteRequired none) =
      composedRequired own (lists.filterMap id) := by
  rw [uniteRequired_eq, foldl_takeIn appendNew_append, ← uniteRequired_eq]
  cases lists.filterMap id with
  | nil => rfl
  | cons first rest =>
    -- the members are collected from nothing, which only drops repetitions among them
    change some (appendNew (own.getD []) (appendNew [] (first :: rest).flatten)) = _
    rw [← appendNew_assoc]
    change some (appendNew (own.getD []) (first :: rest).flatten) = _
    rw [appendNew_eq]
    rfl

namespace Schema

/-- The schema that an owner and the members of its list make together, keyword by keyword. Its own
keywords count more than those of its members, and those of later members more than earlier ones. -/
def composedWith (own : Schema) (members : List Schema) : Schema where
  keywords := {
    id := own.keywords.id.or (lastOf (·.keywords.id) members)
    reference := own.keywords.reference
    title := own.keywords.title.or (lastOf (·.keywords.title) members)
    description := own.keywords.description.or (lastOf (·.keywords.description) members)
    format := own.keywords.format.or (lastOf (·.keywords.format) members)
    pattern := own.keywords.pattern.or (lastOf (·.keywords.pattern) members)
    type := own.keywords.type.or (lastOf (·.keywords.type) members)
    required := composedRequired own.keywords.required (members.filterMap (·.keywords.required))
    enumeration := own.keywords.enumeration.or (lastOf (·.keywords.enumeration) members)
    defaultValue := own.keywords.defaultValue.or (lastOf (·.keywords.defaultValue) members)
    minimum := own.keywords.minimum.or (lastOf (·.keywords.minimum) members)
    maximum := own.keywords.maximum.or (lastOf (·.keywords.maximum) members)
    exclusiveMinimum :=
      own.keywords.exclusiveMinimum.or (lastOf (·.keywords.exclusiveMinimum) members)
    exclusiveMaximum :=
      own.keywords.exclusiveMaximum.or (lastOf (·.keywords.exclusiveMaximum) members)
    multipleOf := own.keywords.multipleOf.or (lastOf (·.keywords.multipleOf) members)
    minLength := own.keywords.minLength.or (lastOf (·.keywords.minLength) members)
    maxLength := own.keywords.maxLength.or (lastOf (·.keywords.maxLength) members)
    minItems := own.keywords.minItems.or (lastOf (·.keywords.minItems) members)
    maxItems := own.keywords.maxItems.or (lastOf (·.keywords.maxItems) members)
    uniqueItems := own.keywords.uniqueItems.or (lastOf (·.keywords.uniqueItems) members)
    minProperties := own.keywords.minProperties.or (lastOf (·.keywords.minProperties) members)
    maxProperties := own.keywords.maxProperties.or (lastOf (·.keywords.maxProperties) members) }
  properties := composedTable own.properties (members.filterMap (·.properties))
  patternProperties := composedTable own.patternProperties (members.filterMap (·.patternProperties))
  definitions := composedTable own.definitions (members.filterMap (·.definitions))
  items := own.items.or (lastOf (·.items) members)
  additionalProperties := own.additionalProperties.or (lastOf (·.additionalProperties) members)
  allOf := none
  anyOf := own.anyOf.or (lastOf (·.anyOf) members)
  oneOf := own.oneOf.or (lastOf (·.oneOf) members)
  not := own.not.or (lastOf (·.not) members)

variable {members : List Schema}

/-- Where one schema is overwritten from another, the keyword comes from the latter if it is set. -/
structure Overwritten {α : Type} (f : Schema → Option α) : Prop where
  empty : f {} = none
  step (a b : Schema) : f (a.overwriteFrom b) = (f b).or (f a)

theorem Overwritten.last {α : Type} {f : Schema → Option α} (h : Overwritten f)
    (members : List Schema) : f (members.foldl overwriteFrom {}) = lastOf f members := by
  have hfold : f (members.foldl overwriteFrom {}) =
      members.foldl (fun value member => (f member).or value) (f {}) := by
    refine (List.foldl_hom f ?_).symm
    exact fun a b => (h.step a b).symm
  rw [hfold, h.empty, foldl_or, Option.or_none]

theorem table_overwriteFrom (f : Schema → Option (Entries Schema)) (hempty : f {} = none)
    (hstep : ∀ a b : Schema, f (a.overwriteFrom b) = overwriteTable (f a) (f b))
    {own : Option (Entries Schema)} :
    fillTable own (f (members.foldl overwriteFrom {})) =
      composedTable own (members.filterMap f) := by
  have hfold : f (members.foldl overwriteFrom {}) =
      (members.map f).foldl overwriteTable (f {}) := by
    rw [List.foldl_map]
    refine (List.foldl_hom f ?_).symm
    exact fun a b => (hstep a b).symm
  rw [hfold, hempty, fillTable_foldl, List.filterMap_map]
  rfl

theorem required_overwriteFrom (own : Option (List String)) (members : List Schema) :
    uniteRequired own (members.foldl overwriteFrom {}).keywords.required =
      composedRequired own (members.filterMap (·.keywords.required)) := by
  have hfold : (members.foldl overwriteFrom {}).keywords.required =
      (members.map (·.keywords.required)).foldl uniteRequired none := by
    rw [List.foldl_map]
    exact (List.foldl_hom (fun s : Schema => s.keywords.required) fun _ _ => rfl).symm
  rw [hfold, uniteRequired_foldl, List.filterMap_map]
  rfl

theorem lastOf_eq_none {α β : Type} {f : β → Option α} {members : List β}
    (h : ∀ m ∈ members, f m = none) : lastOf f members = none := by
  rw [lastOf, List.findSome?_eq_none_iff]
  intro m hm
  exact h m (List.mem_reverse.1 hm)

/-- Members without references and lists are merged into their owner keyword by keyword. -/
theorem fillAbsent_foldl_overwriteFrom (own : Schema)
    (hreference : ∀ m ∈ members, m.reference = none) (hallOf : ∀ m ∈ members, m.allOf = none) :
    { own with allOf := none }.fillAbsent (members.foldl overwriteFrom {}) =
      own.composedWith members := by
  have hlast {α : Type} (f : Schema → Option α) (h : Overwritten f) {value : Option α} :
      value.or (f (members.foldl overwriteFrom {})) = value.or (lastOf f members) := by
    rw [h.last]
  have hnoReference : (members.foldl overwriteFrom {}).keywords.reference = none :=
    (Overwritten.last ⟨rfl, fun _ _ => rfl⟩ members).trans (lastOf_eq_none hreference)
  have hnoList : (members.foldl overwriteFrom {}).allOf = none :=
    (Overwritten.last ⟨rfl, fun _ _ => rfl⟩ members).trans (lastOf_eq_none hallOf)
  simp only [fillAbsent, Keywords.fillAbsent, composedWith, hnoReference, hnoList, Option.or_none,
    Schema.mk.injEq, Keywords.mk.injEq, true_and]
  and_intros
  · exact hlast (·.keywords.id) ⟨rfl, fun _ _ => rfl⟩
  · exact hlast (·.keywords.title) ⟨rfl, fun _ _ => rfl⟩
  · exact hlast (·.keywords.description) ⟨rfl, fun _ _ => rfl⟩
  · exact hlast (·.keywords.format) ⟨rfl, fun _ _ => rfl⟩
  · exact hlast (·.keywords.pattern) ⟨rfl, fun _ _ => rfl⟩
  · exact hlast (·.keywords.type) ⟨rfl, fun _ _ => rfl⟩
  · exact required_overwriteFrom _ members
  · exact hlast (·.keywords.enumeration) ⟨rfl, fun _ _ => rfl⟩
  · exact hlast (·.keywords.defaultValue) ⟨rfl, fun _ _ => rfl⟩
  · exact hlast (·.keywords.minimum) ⟨rfl, fun _ _ => rfl⟩
  · exact hlast (·.keywords.maximum) ⟨rfl, fun _ _ => rfl⟩
  · exact hlast (·.keywords.exclusiveMinimum) ⟨rfl, fun _ _ => rfl⟩
  · exact hlast (·.keywords.exclusiveMaximum) ⟨rfl, fun _ _ => rfl⟩
  · exact hlast (·.keywords.multipleOf) ⟨rfl, fun _ _ => rfl⟩
  · exact hlast (·.keywords.minLength) ⟨rfl, fun _ _ => rfl⟩
  · exact hlast (·.keywords.maxLength) ⟨rfl, fun _ _ => rfl⟩
  · exact hlast (·.keywords.minItems) ⟨rfl, fun _ _ => rfl⟩
  · exact hlast (·.keywords.maxItems) ⟨rfl, fun _ _ => rfl⟩
  · exact hlast (·.keywords.uniqueItems) ⟨rfl, fun _ _ => rfl⟩
  · exact hlast (·.keywords.minProperties) ⟨rfl, fun _ _ => rfl⟩
  · exact hlast (·.keywords.maxProperties) ⟨rfl, fun _ _ => rfl⟩
  · exact table_overwriteFrom (·.properties) rfl fun _ _ => rfl
  · exact table_overwriteFrom (·.patternProperties) rfl fun _ _ => rfl
  · exact table_overwriteFrom (·.definitions) rfl fun _ _ => rfl
  · exact hlast (·.items) ⟨rfl, fun _ _ => rfl⟩
  · exact hlast (·.additionalProperties) ⟨rfl, fun _ _ => rfl⟩
  · exact hlast (·.anyOf) ⟨rfl, fun _ _ => rfl⟩
  · exact hlast (·.oneOf) ⟨rfl, fun _ _ => rfl⟩
  · exact hlast (·.not) ⟨rfl, fun _ _ => rfl⟩

end Schema

end SchemaCatalog
