import SchemaCatalog.Proofs.Schema.Filling
import SchemaCatalog.Proofs.Schema.Nodes
import SchemaCatalog.Proofs.Schema.Rewriting

namespace SchemaCatalog

def Items.map {α β : Type} (f : α → β) : Items α → Items β
  | .tuple schemas => .tuple (schemas.map f)
  | .single schema => .single (f schema)

def Additional.map {α β : Type} (f : α → β) : Additional α → Additional β
  | .allowed verdict => .allowed verdict
  | .schema value => .schema (f value)

namespace Entries

variable {α β : Type}

def mapValues (f : α → β) (entries : Entries α) : Entries β :=
  List.map (fun e => (e.1, f e.2)) entries

theorem lookup_mapValues (f : α → β) (entries : Entries α) (key : String) :
    (entries.mapValues f).lookup key = (entries.lookup key).map f := by
  induction entries with
  | nil => rfl
  | cons entry rest ih =>
    obtain ⟨k, v⟩ := entry
    rw [lookup_cons]
    change List.lookup key ((k, f v) :: mapValues f rest) = _
    rw [lookup_cons, ih]
    split <;> rfl

theorem has_mapValues (f : α → β) (entries : Entries α) (key : String) :
    (entries.mapValues f).has key = entries.has key := by
  rw [has, has, lookup_mapValues, Option.isSome_map]

theorem mapValues_addMissing (f : α → β) (entries new : Entries α) :
    (entries.addMissing new).mapValues f = (entries.mapValues f).addMissing (new.mapValues f) := by
  induction new generalizing entries with
  | nil => rfl
  | cons first rest ih =>
    obtain ⟨key, value⟩ := first
    rw [addMissing_cons, ih]
    change _ = (entries.mapValues f).addMissing ((key, f value) :: mapValues f rest)
    rw [addMissing_cons, has_mapValues]
    split
    · rfl
    · rw [mapValues, List.map_append]
      rfl

end Entries

namespace Schema

variable {R : Schema → Schema → Prop} {f g : Schema → Schema} {s t : Schema}

def mapChildren (f : Schema → Schema) (s : Schema) : Schema where
  keywords := s.keywords
  properties := s.properties.map (Entries.mapValues f)
  patternProperties := s.patternProperties.map (Entries.mapValues f)
  definitions := s.definitions.map (Entries.mapValues f)
  items := s.items.map (Items.map f)
  additionalProperties := s.additionalProperties.map (Additional.map f)
  allOf := s.allOf.map (List.map f)
  anyOf := s.anyOf.map (List.map f)
  oneOf := s.oneOf.map (List.map f)
  not := s.not.map f

theorem mapChildren_reference (f : Schema → Schema) (s : Schema) :
    (s.mapChildren f).reference = s.reference :=
  rfl

theorem table_mapChildren (f : Schema → Schema) (s : Schema) (place : Table) :
    (s.mapChildren f).table place = (s.table place).map (Entries.mapValues f) := by
  cases place <;> rfl

theorem map_fillTable (f : Schema → Schema) (a b : Option (Entries Schema)) :
    (fillTable a b).map (Entries.mapValues f) =
      fillTable (a.map (Entries.mapValues f)) (b.map (Entries.mapValues f)) := by
  cases b with
  | none => rfl
  | some new =>
    cases a with
    | none => exact congrArg some (Entries.mapValues_addMissing f [] new)
    | some entries => exact congrArg some (Entries.mapValues_addMissing f entries new)

theorem mapChildren_fillAbsent (f : Schema → Schema) (a b : Schema) :
    (a.fillAbsent b).mapChildren f = (a.mapChildren f).fillAbsent (b.mapChildren f) := by
  simp only [mapChildren, fillAbsent, map_fillTable, Option.map_or]

theorem mapChildren_id (s : Schema) : s.mapChildren id = s := by
  have htable : Entries.mapValues (id : Schema → Schema) = id := by
    funext entries
    exact List.map_id _
  have hitems : Items.map (id : Schema → Schema) = id := by
    funext items
    cases items <;> simp [Items.map]
  have hadditional : Additional.map (id : Schema → Schema) = id := by
    funext additional
    cases additional <;> simp [Additional.map]
  cases s
  simp [mapChildren, htable, hitems, hadditional]

theorem optionRel_map {α β γ δ : Type} {S : α → β → Prop} {T : γ → δ → Prop} {f : α → γ}
    {g : β → δ} {a : Option α} {b : Option β} (h : Option.Rel S a b)
    (hST : ∀ a b, S a b → T (f a) (g b)) : Option.Rel T (a.map f) (b.map g) := by
  cases h with
  | none => exact .none
  | some h => exact .some (hST _ _ h)

theorem Alike.mapChildren (h : Alike (fun a b => R (f a) (g b)) s t) :
    Alike R (s.mapChildren f) (t.mapChildren g) := by
  have hlist (a b : List Schema) (h : List.Forall₂ (fun a b => R (f a) (g b)) a b) :
      List.Forall₂ R (a.map f) (b.map g) :=
    List.forall₂_map_left_iff.2 (List.forall₂_map_right_iff.2 h)
  have htable (a b : Entries Schema) (h : AlikeTable (fun a b => R (f a) (g b)) a b) :
      AlikeTable R (a.mapValues f) (b.mapValues g) :=
    List.forall₂_map_left_iff.2 (List.forall₂_map_right_iff.2 h)
  have hitems (a b : Items Schema) (h : AlikeItems (fun a b => R (f a) (g b)) a b) :
      AlikeItems R (a.map f) (b.map g) := by
    cases h with
    | single h => exact .single h
    | tuple h => exact .tuple (hlist _ _ h)
  have hadditional (a b : Additional Schema)
      (h : AlikeAdditional (fun a b => R (f a) (g b)) a b) :
      AlikeAdditional R (a.map f) (b.map g) := by
    cases h with
    | allowed => exact .allowed
    | schema h => exact .schema h
  exact
    { keywords := h.keywords
      properties := optionRel_map h.properties htable
      patternProperties := optionRel_map h.patternProperties htable
      definitions := optionRel_map h.definitions htable
      items := optionRel_map h.items hitems
      additionalProperties := optionRel_map h.additionalProperties hadditional
      allOf := optionRel_map h.allOf hlist
      anyOf := optionRel_map h.anyOf hlist
      oneOf := optionRel_map h.oneOf hlist
      not := optionRel_map h.not fun _ _ h => h }

theorem alike_self (h : ∀ c, Child c s → R c c) : Alike R s s := by
  have hlists {list : Option (List Schema)} (h : ∀ l, list = some l → ∀ c ∈ l, R c c) :
      Option.Rel (List.Forall₂ R) list list := by
    cases list with
    | none => exact .none
    | some l => exact .some (List.forall₂_same.2 (h l rfl))
  have htable {table : Option (Entries Schema)}
      (h : ∀ entries, table = some entries → ∀ key c, (key, c) ∈ entries → R c c) :
      Option.Rel (AlikeTable R) table table := by
    cases table with
    | none => exact .none
    | some entries =>
      exact .some (List.forall₂_same.2 fun e he => ⟨rfl, h entries rfl e.1 e.2 he⟩)
  have hitems : Option.Rel (AlikeItems R) s.items s.items := by
    cases hs : s.items with
    | none => exact .none
    | some items =>
      cases items with
      | single c => exact .some (.single (h c (.item hs)))
      | tuple list =>
        exact .some (.tuple (List.forall₂_same.2 fun c hc => h c (.position hs hc)))
  have hadditional : Option.Rel (AlikeAdditional R) s.additionalProperties
      s.additionalProperties := by
    cases hs : s.additionalProperties with
    | none => exact .none
    | some additional =>
      cases additional with
      | allowed verdict => exact .some .allowed
      | schema c => exact .some (.schema (h c (.additional hs)))
  have hnot : Option.Rel R s.not s.not := by
    cases hs : s.not with
    | none => exact .none
    | some c => exact .some (h c (.not hs))
  exact
    { keywords := rfl
      properties := htable fun _ hs _ c hc => h c (.property hs hc)
      patternProperties := htable fun _ hs _ c hc => h c (.pattern hs hc)
      definitions := htable fun _ hs _ c hc => h c (.definition hs hc)
      items := hitems
      additionalProperties := hadditional
      allOf := hlists fun _ hs c hc => h c (.allOf hs hc)
      anyOf := hlists fun _ hs c hc => h c (.anyOf hs hc)
      oneOf := hlists fun _ hs c hc => h c (.oneOf hs hc)
      not := hnot }

theorem mapChildren_congr (h : ∀ c, Child c s → f c = g c) : s.mapChildren f = s.mapChildren g :=
  (alike_self (R := fun a b => f a = g b) h).mapChildren.eq

theorem alike_mapChildren (h : ∀ c, Child c s → R c (f c)) : Alike R s (s.mapChildren f) := by
  have halike : Alike R (s.mapChildren id) (s.mapChildren f) := (alike_self h).mapChildren
  rwa [mapChildren_id] at halike

/-- The schema rebuilt from the leaves up by a function of nodes. -/
def rebuild (f : Schema → Schema) (s : Schema) : Schema :=
  Id.run (walk (fun _ node => pure (f node)) "" s)

theorem rewrite_rebuild (f : Schema → Schema) (s : Schema) :
    rewrite (fun node => some (f node)) s = some (rebuild f s) := by
  have hacts : Acts (m := Id) (fun _ node => pure (f node)) (fun _ : Unit => True)
      fun node => some (f node) :=
    fun _ _ _ _ => ensures_pure ⟨trivial, rfl⟩
  have hrun : Runs.outcome (walk (m := Id) (fun _ node => pure (f node)) "" s) () =
      .ok (rebuild f s, ()) := rfl
  exact hacts.of_ok trivial hrun

/-- To rebuild a schema, rebuild its children and then apply the function to the node. -/
theorem rebuild_eq (f : Schema → Schema) (s : Schema) :
    rebuild f s = f (s.mapChildren (rebuild f)) := by
  have hchildren : Alike (fun a b => rewrite (fun node => some (f node)) a = some b) s
      (s.mapChildren (rebuild f)) :=
    alike_mapChildren fun c _ => rewrite_rebuild f c
  have h := rewrite_eq_of_alike hchildren
  rw [rewrite_rebuild] at h
  exact Option.some.inj h

theorem rewrite_self {f : Schema → Option Schema} (h : ∀ n, Within n s → f n = some n) :
    rewrite f s = some s := by
  induction s using child_induction with
  | h s ih =>
    have hchildren : Alike (fun a b => rewrite f a = some b) s s :=
      alike_self fun c hc => ih c hc fun n hn => h n (hn.child hc)
    rw [rewrite_eq_of_alike hchildren]
    exact h s (.refl s)

theorem rewrite_mapReferences (f : String → String) (s : Schema) :
    rewrite (fun node => some (renameNode f node)) s = some (s.mapReferences f) :=
  rewrite_rebuild (renameNode f) s

/-- Functions that agree on the nodes that have the reference of some node of a schema rebuild it
alike. -/
theorem rebuild_congr (h : ∀ node, (∃ n, Within n s ∧ node.reference = n.reference) →
    f node = g node) :
    rebuild f s = rebuild g s := by
  induction s using child_induction with
  | h s ih =>
    rw [rebuild_eq f, rebuild_eq g]
    have hchildren : s.mapChildren (rebuild f) = s.mapChildren (rebuild g) := by
      refine mapChildren_congr fun c hc => ih c hc fun node hnode => h node ?_
      obtain ⟨n, hn, hreference⟩ := hnode
      exact ⟨n, hn.child hc, hreference⟩
    rw [hchildren]
    exact h _ ⟨s, .refl s, mapChildren_reference _ _⟩

end Schema

end SchemaCatalog
