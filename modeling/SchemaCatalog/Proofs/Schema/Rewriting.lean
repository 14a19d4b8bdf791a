import SchemaCatalog.Proofs.Schema.Walk
import SchemaCatalog.Proofs.Schema.Merging

namespace SchemaCatalog

instance : Runs Option Unit Unit where
  outcome x st :=
    match x with
    | some a => .ok (a, st)
    | none => .error ()
  outcome_pure _ _ := rfl
  outcome_bind x _ _ := by cases x <;> rfl

theorem outcome_some {α : Type} {x : Option α} {a : α} (h : x = some a) :
    Runs.outcome x () = .ok (a, ()) := by
  rw [h]
  rfl

namespace Schema

/-- The schema rebuilt from the leaves up by a function that may refuse a node. -/
def rewrite (f : Schema → Option Schema) (s : Schema) : Option Schema :=
  walk (fun _ node => f node) "" s

variable {f g : Schema → Option Schema} {s s' t : Schema}

section

/-- At any path, `a` is rebuilt as `b`. -/
def Rebuilds (f : Schema → Option Schema) (a b : Schema) : Prop :=
  ∀ path, walk (fun _ node => f node) path a = some b

theorem walkList_rebuilds {list list' : List Schema} (h : List.Forall₂ (Rebuilds f) list list')
    (path : String) (i : Nat) : walkList (fun _ node => f node) path i list = some list' := by
  induction h generalizing i with
  | nil => rfl
  | cons hab _ ih =>
    rw [walkList, hab, ih]
    rfl

theorem walkLists_rebuilds {list list' : Option (List Schema)}
    (h : Option.Rel (List.Forall₂ (Rebuilds f)) list list') (path : String) :
    walkLists (fun _ node => f node) path list = some list' := by
  cases h with
  | none => rfl
  | some h =>
    rw [walkLists, walkList_rebuilds h]
    rfl

theorem walkTable_rebuilds {table table' : Option (List (String × Schema))}
    (h : Option.Rel (AlikeTable (Rebuilds f)) table table') (path : String) :
    walkTable (fun _ node => f node) path table = some table' := by
  have hentries {entries entries' : List (String × Schema)}
      (h : AlikeTable (Rebuilds f) entries entries') :
      walkEntries (fun _ node => f node) path entries = some entries' := by
    induction h with
    | nil => rfl
    | @cons a b _ _ hab _ ih =>
      obtain ⟨key, a⟩ := a
      obtain ⟨key', b⟩ := b
      obtain ⟨hkey, hab⟩ := hab
      cases hkey
      rw [walkEntries, hab, ih]
      rfl
  cases h with
  | none => rfl
  | some h =>
    rw [walkTable, hentries h]
    rfl

theorem walkItems_rebuilds {items items' : Option (Items Schema)}
    (h : Option.Rel (AlikeItems (Rebuilds f)) items items') (path : String) :
    walkItems (fun _ node => f node) path items = some items' := by
  cases h with
  | none => rfl
  | some h =>
    cases h with
    | single h =>
      rw [walkItems, h]
      rfl
    | tuple h =>
      rw [walkItems, walkList_rebuilds h]
      rfl

theorem walkAdditional_rebuilds {additional additional' : Option (Additional Schema)}
    (h : Option.Rel (AlikeAdditional (Rebuilds f)) additional additional') (path : String) :
    walkAdditional (fun _ node => f node) path additional = some additional' := by
  cases h with
  | none => rfl
  | some h =>
    cases h with
    | allowed => rfl
    | schema h =>
      rw [walkAdditional, h]
      rfl

theorem walkNode_rebuilds {node node' : Option Schema} (h : Option.Rel (Rebuilds f) node node')
    (path : String) : walkNode (fun _ node => f node) path node = some node' := by
  cases h with
  | none => rfl
  | some h =>
    rw [walkNode, h]
    rfl

theorem walk_rebuilds (h : Alike (Rebuilds f) s s') (path : String) :
    walk (fun _ node => f node) path s = f s' := by
  obtain ⟨kw, props, patterns, defs, items, additional, allOf, anyOf, oneOf, not⟩ := s
  cases s'
  cases h.keywords
  rw [walk, walkTable_rebuilds h.properties, walkTable_rebuilds h.patternProperties,
    walkTable_rebuilds h.definitions, walkItems_rebuilds h.items,
    walkAdditional_rebuilds h.additionalProperties, walkLists_rebuilds h.allOf,
    walkLists_rebuilds h.anyOf, walkLists_rebuilds h.oneOf, walkNode_rebuilds h.not]
  rfl

theorem visits_rebuilds : Visits (m := Option) (fun _ node => f node) (fun _ => True)
    (fun _ => True)
    (fun _ s t => Rebuilds f s t ∧ ∃ s', Alike (Rebuilds f) s s' ∧ f s' = some t)
    (fun _ => True) where
  below _ _ := trivial
  node := by
    intro path s s' st _ _ halike
    have hchildren : Alike (Rebuilds f) s s' := halike.mono fun _ _ h => h.1
    cases hf : f s' with
    | none => trivial
    | some t =>
      refine ⟨⟨trivial, fun _ _ h => h⟩, fun path => ?_, s', hchildren, hf⟩
      rw [walk_rebuilds hchildren, hf]

end

theorem rebuilds_iff : Rebuilds f s t ↔ rewrite f s = some t := by
  refine ⟨fun h => h "", fun h => ?_⟩
  exact ((visits_rebuilds.walk "" s () trivial trivial).of_ok (outcome_some h)).2.1

theorem rewrite_eq_of_alike (h : Alike (fun a b => rewrite f a = some b) s s') :
    rewrite f s = f s' :=
  walk_rebuilds (h.mono fun _ _ h => rebuilds_iff.2 h) ""

theorem exists_of_rewrite (h : rewrite f s = some t) :
    ∃ s', Alike (fun a b => rewrite f a = some b) s s' ∧ f s' = some t := by
  have hwalk := (visits_rebuilds.walk "" s () trivial trivial).of_ok (outcome_some h)
  obtain ⟨s', halike, hf⟩ := hwalk.2.2
  exact ⟨s', halike.mono fun _ _ h => rebuilds_iff.1 h, hf⟩

theorem rewrite_within {n : Schema} (hn : Within n s) (h : rewrite f s = some t) :
    ∃ n', rewrite f n = some n' := by
  induction hn generalizing t with
  | refl => exact ⟨t, h⟩
  | tail _ hc ih =>
    obtain ⟨s', halike, _⟩ := exists_of_rewrite h
    obtain ⟨c', _, hc'⟩ := halike.child hc
    exact ih hc'

/-- A property of schemas that holds of what stands below, and of a schema whose children were
replaced by ones that have it. -/
structure Inherited (P : Schema → Prop) : Prop where
  below {s c : Schema} : P s → Child c s → P c
  alike {s s' : Schema} : P s → Alike (fun _ b => P b) s s' → P s'

/-- Where `g` does what `f` does to the nodes with a property, and they keep it, rewriting by `g`
gives the same as by `f`. -/
theorem rewrite_agrees {P : Schema → Prop} (hP : Inherited P)
    (hfg : ∀ s t, P s → f s = some t → g s = some t ∧ P t) (hs : P s) (h : rewrite f s = some t) :
    rewrite g s = some t ∧ P t := by
  have hvisits : Visits (m := Option) (fun _ node => f node) P (fun _ => True)
      (fun _ s t => rewrite g s = some t ∧ P t) (fun _ => True) := by
    refine ⟨hP.below, ?_⟩
    intro path s s' st hs _ halike
    cases hf : f s' with
    | none => trivial
    | some t =>
      have hs' := hP.alike hs (halike.mono fun _ _ h => h.2)
      obtain ⟨hg, ht⟩ := hfg s' t hs' hf
      have hchildren := rewrite_eq_of_alike (halike.mono fun _ _ h => h.1)
      exact ⟨⟨trivial, fun _ _ h => h⟩, hchildren.trans hg, ht⟩
  exact ((hvisits.walk "" s () hs trivial).of_ok (outcome_some h)).2

theorem rewrite_keeps {P : Schema → Prop} (hP : Inherited P)
    (hf : ∀ s t, P s → f s = some t → P t) (hs : P s) (h : rewrite f s = some t) : P t :=
  (rewrite_agrees hP (fun s t hs h => ⟨h, hf s t hs h⟩) hs h).2

section

variable {m : Type → Type} [Monad m] {σ ε : Type} [Runs m σ ε] {I : σ → Prop}
  {visit : String → Schema → m Schema}

/-- In states that satisfy `I` the visit does to a node what `f` does, and fails where `f` refuses,
whatever the path is. -/
def Acts (visit : String → Schema → m Schema) (I : σ → Prop) (f : Schema → Option Schema) : Prop :=
  ∀ path node st, I st →
    Ensures (visit path node) st (fun t st' => I st' ∧ f node = some t) fun _ => f node = none

theorem Acts.walk (h : Acts visit I f) (path : String) (s : Schema) {st : σ} (hst : I st) :
    Ensures (walk visit path s) st (fun t st' => I st' ∧ rewrite f s = some t)
      fun _ => rewrite f s = none := by
  have hvisits : Visits visit (Within · s) I (fun _ a b => rewrite f a = some b)
      (fun _ => rewrite f s = none) := by
    refine ⟨fun hn hc => hn.below hc, ?_⟩
    intro path n n' st hn hst halike
    have hchildren := rewrite_eq_of_alike halike
    refine (h path n' st hst).mono (fun t st' ht => ?_) fun _ hnone => ?_
    · exact ⟨⟨ht.1, fun _ _ h => h⟩, hchildren.trans ht.2⟩
    · cases hs : rewrite f s with
      | none => rfl
      | some t =>
        obtain ⟨n', hn'⟩ := rewrite_within hn hs
        rw [hchildren, hnone] at hn'
        cases hn'
  exact (hvisits.walk path s st (.refl s) hst).mono (fun _ _ h => ⟨h.1.1, h.2⟩) fun _ h => h

theorem Acts.of_ok (h : Acts visit I f) {path : String} {st st' : σ} (hst : I st)
    (hrun : Runs.outcome (Schema.walk visit path s) st = .ok (t, st')) : rewrite f s = some t :=
  ((h.walk path s hst).of_ok hrun).2

end

/-- The keywords that hold tables. -/
inductive Table where
  | properties
  | patternProperties
  | definitions
deriving DecidableEq, Repr

def table (s : Schema) : Table → Option (Entries Schema)
  | .properties => s.properties
  | .patternProperties => s.patternProperties
  | .definitions => s.definitions

/-- The schema under a key of a table. -/
def under? (s : Schema) (place : Table) (key : String) : Option Schema :=
  ((s.table place).getD []).lookup key

variable {place : Table} {key : String} {c : Schema}

theorem child_of_entry (h : s.under? place key = some c) : Child c s := by
  unfold under? at h
  cases htable : s.table place with
  | none =>
    rw [htable] at h
    cases h
  | some entries =>
    rw [htable] at h
    have hc := mem_of_lookup h
    cases place with
    | properties => exact .property htable hc
    | patternProperties => exact .pattern htable hc
    | definitions => exact .definition htable hc

theorem AlikeTable.lookup {R : Schema → Schema → Prop} {as bs : List (String × Schema)}
    (h : AlikeTable R as bs) (ha : as.lookup key = some c) :
    ∃ c', bs.lookup key = some c' ∧ R c c' := by
  induction h with
  | nil => cases ha
  | @cons a b _ _ hab _ ih =>
    obtain ⟨k, a⟩ := a
    obtain ⟨k', b⟩ := b
    obtain ⟨hk, hab⟩ := hab
    cases hk
    rw [Entries.lookup_cons] at ha ⊢
    split at ha
    · cases ha
      rename_i hk
      exact ⟨b, if_pos hk, hab⟩
    · rename_i hk
      rw [if_neg hk]
      exact ih ha

theorem Alike.entry {R : Schema → Schema → Prop} (h : Alike R s s')
    (hc : s.under? place key = some c) : ∃ c', s'.under? place key = some c' ∧ R c c' := by
  have htable : Option.Rel (AlikeTable R) (s.table place) (s'.table place) := by
    cases place with
    | properties => exact h.properties
    | patternProperties => exact h.patternProperties
    | definitions => exact h.definitions
  unfold under? at hc ⊢
  generalize s.table place = a at htable hc
  generalize s'.table place = b at htable
  cases htable with
  | none => cases hc
  | some h => exact h.lookup hc

/-- The function leaves the entries of a node as they are; it may add others. -/
def KeepsEntries (f : Schema → Option Schema) : Prop :=
  ∀ s t, f s = some t → ∀ place key c, s.under? place key = some c → t.under? place key = some c

theorem rewrite_entry (hf : KeepsEntries f) (h : rewrite f s = some t)
    (hc : s.under? place key = some c) :
    ∃ c', rewrite f c = some c' ∧ t.under? place key = some c' := by
  obtain ⟨s', halike, hs'⟩ := exists_of_rewrite h
  obtain ⟨c', hc', hrewrite⟩ := halike.entry hc
  exact ⟨c', hrewrite, hf s' t hs' place key c' hc'⟩

theorem table_fillAbsent (a b : Schema) (place : Table) :
    (a.fillAbsent b).table place = fillTable (a.table place) (b.table place) := by
  cases place <;> rfl

theorem entry_fillAbsent (source : Schema) (hc : s.under? place key = some c) :
    (s.fillAbsent source).under? place key = some c := by
  unfold under? at hc ⊢
  rw [table_fillAbsent]
  cases hs : s.table place with
  | none =>
    rw [hs] at hc
    cases hc
  | some entries =>
    rw [hs] at hc
    cases source.table place with
    | none => exact hc
    | some new => exact Entries.lookup_addMissing hc new

end Schema

end SchemaCatalog
