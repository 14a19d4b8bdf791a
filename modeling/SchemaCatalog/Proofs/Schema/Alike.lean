import SchemaCatalog.Schema.Basic
import Mathlib.Data.List.Forall2
import Mathlib.Logic.Relation

namespace SchemaCatalog

theorem optionRel_mono {α β : Type} {R S : α → β → Prop} {a : Option α} {b : Option β}
    (h : Option.Rel R a b) (hRS : ∀ a b, R a b → S a b) : Option.Rel S a b := by
  cases h with
  | none => exact .none
  | some h => exact .some (hRS _ _ h)

theorem optionRel_flip {α β : Type} {R : α → β → Prop} {a : Option α} {b : Option β}
    (h : Option.Rel R a b) : Option.Rel (fun b a => R a b) b a := by
  cases h with
  | none => exact .none
  | some h => exact .some h

theorem optionRel_eq {α : Type} {a b : Option α} (h : Option.Rel Eq a b) : a = b := by
  cases h with
  | none => rfl
  | some h => exact congrArg some h

theorem optionRel_isSome {α β : Type} {R : α → β → Prop} {a : Option α} {b : Option β}
    (h : Option.Rel R a b) : a.isSome = b.isSome := by
  cases h <;> rfl

theorem optionRel_refl {α : Type} {R : α → α → Prop} (h : ∀ a, R a a) (a : Option α) :
    Option.Rel R a a := by
  cases a with
  | none => exact .none
  | some a => exact .some (h a)

theorem forall₂_left {α β : Type} {R : α → β → Prop} {as : List α} {bs : List β}
    (h : List.Forall₂ R as bs) {a : α} (ha : a ∈ as) : ∃ b ∈ bs, R a b := by
  induction h with
  | nil => cases ha
  | cons hab _ ih =>
    cases ha with
    | head => exact ⟨_, List.mem_cons_self, hab⟩
    | tail _ ha =>
      obtain ⟨b, hb, h⟩ := ih ha
      exact ⟨b, List.mem_cons_of_mem _ hb, h⟩

namespace Schema

/-- `Child c s` says that `c` stands directly below `s`. -/
inductive Child : Schema → Schema → Prop
  | property {s c key table} : s.properties = some table → (key, c) ∈ table → Child c s
  | pattern {s c key table} : s.patternProperties = some table → (key, c) ∈ table → Child c s
  | definition {s c key table} : s.definitions = some table → (key, c) ∈ table → Child c s
  | item {s c} : s.items = some (.single c) → Child c s
  | position {s c list} : s.items = some (.tuple list) → c ∈ list → Child c s
  | additional {s c} : s.additionalProperties = some (.schema c) → Child c s
  | allOf {s c list} : s.allOf = some list → c ∈ list → Child c s
  | anyOf {s c list} : s.anyOf = some list → c ∈ list → Child c s
  | oneOf {s c list} : s.oneOf = some list → c ∈ list → Child c s
  | not {s c} : s.not = some c → Child c s

theorem Child.keywords {c s : Schema} (h : Child c s) (kw : Keywords) :
    Child c { s with keywords := kw } := by
  cases h with
  | property hs hc => exact .property hs hc
  | pattern hs hc => exact .pattern hs hc
  | definition hs hc => exact .definition hs hc
  | item hs => exact .item hs
  | position hs hc => exact .position hs hc
  | additional hs => exact .additional hs
  | allOf hs hc => exact .allOf hs hc
  | anyOf hs hc => exact .anyOf hs hc
  | oneOf hs hc => exact .oneOf hs hc
  | not hs => exact .not hs

theorem child_keywords_iff {c s : Schema} {kw : Keywords} :
    Child c { s with keywords := kw } ↔ Child c s := by
  cases s
  exact ⟨fun h => h.keywords _, fun h => h.keywords kw⟩

theorem child_dropAllOf {c s : Schema} (h : Child c { s with allOf := none }) : Child c s := by
  cases h with
  | property hs hc => exact .property hs hc
  | pattern hs hc => exact .pattern hs hc
  | definition hs hc => exact .definition hs hc
  | item hs => exact .item hs
  | position hs hc => exact .position hs hc
  | additional hs => exact .additional hs
  | allOf hs hc => cases hs
  | anyOf hs hc => exact .anyOf hs hc
  | oneOf hs hc => exact .oneOf hs hc
  | not hs => exact .not hs

theorem child_withOneOf {c s : Schema} {list : List Schema}
    (h : Child c { s with oneOf := some list }) : Child c s ∨ c ∈ list := by
  cases h with
  | property hs hc => exact .inl (.property hs hc)
  | pattern hs hc => exact .inl (.pattern hs hc)
  | definition hs hc => exact .inl (.definition hs hc)
  | item hs => exact .inl (.item hs)
  | position hs hc => exact .inl (.position hs hc)
  | additional hs => exact .inl (.additional hs)
  | allOf hs hc => exact .inl (.allOf hs hc)
  | anyOf hs hc => exact .inl (.anyOf hs hc)
  | oneOf hs hc =>
    cases hs
    exact .inr hc
  | not hs => exact .inl (.not hs)

/-- `Within n s` says that `n` is a node of `s`. -/
def Within : Schema → Schema → Prop := Relation.ReflTransGen Child

theorem Within.refl (s : Schema) : Within s s := Relation.ReflTransGen.refl

theorem Within.child {n c s : Schema} (h : Within n c) (hc : Child c s) : Within n s :=
  Relation.ReflTransGen.tail h hc

theorem within_iff {n s : Schema} : Within n s ↔ n = s ∨ ∃ c, Child c s ∧ Within n c := by
  constructor
  · intro h
    cases h with
    | refl => exact .inl rfl
    | tail h hc => exact .inr ⟨_, hc, h⟩
  · intro h
    cases h with
    | inl h => exact h ▸ Within.refl s
    | inr h =>
      obtain ⟨c, hc, h⟩ := h
      exact h.child hc

theorem Within.trans {a b c : Schema} (h : Within a b) (h' : Within b c) : Within a c :=
  Relation.ReflTransGen.trans h h'

theorem Within.below {c s root : Schema} (h : Within s root) (hc : Child c s) : Within c root :=
  ((Within.refl c).child hc).trans h

/-- Tables with the same keys in the same order and related values. -/
def AlikeTable (R : Schema → Schema → Prop) :
    List (String × Schema) → List (String × Schema) → Prop :=
  List.Forall₂ fun a b => a.1 = b.1 ∧ R a.2 b.2

inductive AlikeItems (R : Schema → Schema → Prop) : Items Schema → Items Schema → Prop
  | single {a b} : R a b → AlikeItems R (.single a) (.single b)
  | tuple {as bs} : List.Forall₂ R as bs → AlikeItems R (.tuple as) (.tuple bs)

inductive AlikeAdditional (R : Schema → Schema → Prop) :
    Additional Schema → Additional Schema → Prop
  | allowed {verdict} : AlikeAdditional R (.allowed verdict) (.allowed verdict)
  | schema {a b} : R a b → AlikeAdditional R (.schema a) (.schema b)

/-- The same keywords, with related subschemas in the same places. -/
structure Alike (R : Schema → Schema → Prop) (s t : Schema) : Prop where
  keywords : s.keywords = t.keywords
  properties : Option.Rel (AlikeTable R) s.properties t.properties
  patternProperties : Option.Rel (AlikeTable R) s.patternProperties t.patternProperties
  definitions : Option.Rel (AlikeTable R) s.definitions t.definitions
  items : Option.Rel (AlikeItems R) s.items t.items
  additionalProperties :
    Option.Rel (AlikeAdditional R) s.additionalProperties t.additionalProperties
  allOf : Option.Rel (List.Forall₂ R) s.allOf t.allOf
  anyOf : Option.Rel (List.Forall₂ R) s.anyOf t.anyOf
  oneOf : Option.Rel (List.Forall₂ R) s.oneOf t.oneOf
  not : Option.Rel R s.not t.not

variable {R S : Schema → Schema → Prop}

theorem AlikeTable.mono {as bs : List (String × Schema)} (h : AlikeTable R as bs)
    (hRS : ∀ a b, R a b → S a b) : AlikeTable S as bs :=
  List.Forall₂.imp (fun _ _ hab => ⟨hab.1, hRS _ _ hab.2⟩) h

theorem AlikeItems.mono {a b : Items Schema} (h : AlikeItems R a b)
    (hRS : ∀ a b, R a b → S a b) : AlikeItems S a b := by
  cases h with
  | single h => exact .single (hRS _ _ h)
  | tuple h => exact .tuple (h.imp hRS)

theorem AlikeAdditional.mono {a b : Additional Schema} (h : AlikeAdditional R a b)
    (hRS : ∀ a b, R a b → S a b) : AlikeAdditional S a b := by
  cases h with
  | allowed => exact .allowed
  | schema h => exact .schema (hRS _ _ h)

theorem AlikeTable.flip {as bs : List (String × Schema)} (h : AlikeTable R as bs) :
    AlikeTable (fun b a => R a b) bs as :=
  List.Forall₂.flip (List.Forall₂.imp (fun _ _ hab => ⟨hab.1.symm, hab.2⟩) h)

theorem AlikeItems.flip {a b : Items Schema} (h : AlikeItems R a b) :
    AlikeItems (fun b a => R a b) b a := by
  cases h with
  | single h => exact .single h
  | tuple h => exact .tuple h.flip

theorem AlikeAdditional.flip {a b : Additional Schema} (h : AlikeAdditional R a b) :
    AlikeAdditional (fun b a => R a b) b a := by
  cases h with
  | allowed => exact .allowed
  | schema h => exact .schema h

theorem AlikeTable.eq {as bs : List (String × Schema)} (h : AlikeTable Eq as bs) : as = bs :=
  List.forall₂_eq_eq_eq ▸ List.Forall₂.imp (fun _ _ hab => Prod.ext hab.1 hab.2) h

theorem AlikeItems.eq {a b : Items Schema} (h : AlikeItems Eq a b) : a = b := by
  cases h with
  | single h => rw [h]
  | tuple h => rw [List.forall₂_eq_eq_eq] at h; rw [h]

theorem AlikeAdditional.eq {a b : Additional Schema} (h : AlikeAdditional Eq a b) : a = b := by
  cases h with
  | allowed => rfl
  | schema h => rw [h]

theorem Alike.mono {s t : Schema} (h : Alike R s t) (hRS : ∀ a b, R a b → S a b) :
    Alike S s t where
  keywords := h.keywords
  properties := optionRel_mono h.properties fun _ _ h => h.mono hRS
  patternProperties := optionRel_mono h.patternProperties fun _ _ h => h.mono hRS
  definitions := optionRel_mono h.definitions fun _ _ h => h.mono hRS
  items := optionRel_mono h.items fun _ _ h => h.mono hRS
  additionalProperties := optionRel_mono h.additionalProperties fun _ _ h => h.mono hRS
  allOf := optionRel_mono h.allOf fun _ _ h => h.imp hRS
  anyOf := optionRel_mono h.anyOf fun _ _ h => h.imp hRS
  oneOf := optionRel_mono h.oneOf fun _ _ h => h.imp hRS
  not := optionRel_mono h.not hRS

theorem Alike.reference {s t : Schema} (h : Alike R s t) : s.reference = t.reference :=
  congrArg Keywords.reference h.keywords

theorem Alike.eq {s t : Schema} (h : Alike Eq s t) : s = t := by
  have hlist {a b : Option (List Schema)} (h : Option.Rel (List.Forall₂ Eq) a b) : a = b :=
    optionRel_eq (List.forall₂_eq_eq_eq ▸ h)
  have htable {a b : Option (List (String × Schema))} (h : Option.Rel (AlikeTable Eq) a b) :
      a = b :=
    optionRel_eq (optionRel_mono h fun _ _ h => h.eq)
  have hitems := optionRel_eq (optionRel_mono h.items fun _ _ h => h.eq)
  have hadditional := optionRel_eq (optionRel_mono h.additionalProperties fun _ _ h => h.eq)
  cases s
  cases t
  cases h.keywords
  cases htable h.properties
  cases htable h.patternProperties
  cases htable h.definitions
  cases hitems
  cases hadditional
  cases hlist h.allOf
  cases hlist h.anyOf
  cases hlist h.oneOf
  cases optionRel_eq h.not
  rfl

theorem Alike.flip {s t : Schema} (h : Alike R s t) : Alike (fun t s => R s t) t s where
  keywords := h.keywords.symm
  properties := optionRel_mono (optionRel_flip h.properties) fun _ _ h => h.flip
  patternProperties := optionRel_mono (optionRel_flip h.patternProperties) fun _ _ h => h.flip
  definitions := optionRel_mono (optionRel_flip h.definitions) fun _ _ h => h.flip
  items := optionRel_mono (optionRel_flip h.items) fun _ _ h => h.flip
  additionalProperties :=
    optionRel_mono (optionRel_flip h.additionalProperties) fun _ _ h => h.flip
  allOf := optionRel_mono (optionRel_flip h.allOf) fun _ _ h => h.flip
  anyOf := optionRel_mono (optionRel_flip h.anyOf) fun _ _ h => h.flip
  oneOf := optionRel_mono (optionRel_flip h.oneOf) fun _ _ h => h.flip
  not := optionRel_flip h.not

theorem child_of_table {a b : Option (List (String × Schema))} {table key c}
    (h : Option.Rel (AlikeTable R) a b) (ha : a = some table) (hc : (key, c) ∈ table) :
    ∃ table' c', b = some table' ∧ (key, c') ∈ table' ∧ R c c' := by
  subst ha
  cases h with
  | some h =>
    obtain ⟨⟨key', c'⟩, hc', hkey, hR⟩ := forall₂_left h hc
    cases hkey
    exact ⟨_, c', rfl, hc', hR⟩

theorem child_of_list {a b : Option (List Schema)} {list c}
    (h : Option.Rel (List.Forall₂ R) a b) (ha : a = some list) (hc : c ∈ list) :
    ∃ list' c', b = some list' ∧ c' ∈ list' ∧ R c c' := by
  subst ha
  cases h with
  | some h =>
    obtain ⟨c', hc', hR⟩ := forall₂_left h hc
    exact ⟨_, c', rfl, hc', hR⟩

theorem Alike.child {s t c : Schema} (h : Alike R s t) (hc : Child c s) :
    ∃ c', Child c' t ∧ R c c' := by
  cases hc with
  | property hs hc =>
    obtain ⟨_, c', ht, hc', hR⟩ := child_of_table h.properties hs hc
    exact ⟨c', .property ht hc', hR⟩
  | pattern hs hc =>
    obtain ⟨_, c', ht, hc', hR⟩ := child_of_table h.patternProperties hs hc
    exact ⟨c', .pattern ht hc', hR⟩
  | definition hs hc =>
    obtain ⟨_, c', ht, hc', hR⟩ := child_of_table h.definitions hs hc
    exact ⟨c', .definition ht hc', hR⟩
  | item hs =>
    have hitems := h.items
    rw [hs] at hitems
    generalize ht : t.items = items at hitems
    cases hitems with
    | some hitem =>
      cases hitem with
      | single hR => exact ⟨_, .item ht, hR⟩
  | position hs hc =>
    have hitems := h.items
    rw [hs] at hitems
    generalize ht : t.items = items at hitems
    cases hitems with
    | some hitem =>
      cases hitem with
      | tuple hlist =>
        obtain ⟨c', hc', hR⟩ := forall₂_left hlist hc
        exact ⟨c', .position ht hc', hR⟩
  | additional hs =>
    have hadditional := h.additionalProperties
    rw [hs] at hadditional
    generalize ht : t.additionalProperties = additional at hadditional
    cases hadditional with
    | some hvalue =>
      cases hvalue with
      | schema hR => exact ⟨_, .additional ht, hR⟩
  | allOf hs hc =>
    obtain ⟨_, c', ht, hc', hR⟩ := child_of_list h.allOf hs hc
    exact ⟨c', .allOf ht hc', hR⟩
  | anyOf hs hc =>
    obtain ⟨_, c', ht, hc', hR⟩ := child_of_list h.anyOf hs hc
    exact ⟨c', .anyOf ht hc', hR⟩
  | oneOf hs hc =>
    obtain ⟨_, c', ht, hc', hR⟩ := child_of_list h.oneOf hs hc
    exact ⟨c', .oneOf ht hc', hR⟩
  | not hs =>
    have hnot := h.not
    rw [hs] at hnot
    generalize ht : t.not = child at hnot
    cases hnot with
    | some hR => exact ⟨_, .not ht, hR⟩

end Schema

end SchemaCatalog
