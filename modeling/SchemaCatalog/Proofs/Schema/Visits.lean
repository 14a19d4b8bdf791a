import SchemaCatalog.Proofs.Schema.Nodes
import SchemaCatalog.Proofs.Schema.Parallel

namespace SchemaCatalog.Schema

section

variable {α β : Type} {x : StateM (List (String × Schema)) α} {a : α}
  {entries : List (String × Schema)}

/-- The step gives a value and notes these nodes, in this order. -/
def Notes (x : StateM (List (String × Schema)) α) (a : α) (entries : List (String × Schema)) :
    Prop :=
  ∀ st, x.run st = (a, entries.reverse ++ st)

theorem notes_pure (a : α) : Notes (pure a) a [] := fun _ => rfl

theorem Notes.bind {f : α → StateM (List (String × Schema)) β} {b : β}
    {entries' : List (String × Schema)} (hx : Notes x a entries) (hf : Notes (f a) b entries') :
    Notes (x >>= f) b (entries ++ entries') := by
  intro st
  have hrun : (x >>= f).run st = (f (x.run st).1).run (x.run st).2 := rfl
  rw [hrun, hx st, hf, List.reverse_append, List.append_assoc]

theorem Notes.map {b : β} {f : α → StateM (List (String × Schema)) β} (hx : Notes x a entries)
    (hf : f a = pure b) : Notes (x >>= f) b entries := by
  have hnotes := hx.bind (hf ▸ notes_pure b)
  rwa [List.append_nil] at hnotes

theorem notes_note (path : String) (node : Schema) : Notes (note path node) node [(path, node)] :=
  fun _ => rfl

end

def nodesOf (path : String) (children : List (String × Schema)) : List (String × Schema) :=
  children.flatMap fun e => e.2.nodes (path ++ "/" ++ e.1)

theorem nodesOf_append (path : String) (front back : List (String × Schema)) :
    nodesOf path (front ++ back) = nodesOf path front ++ nodesOf path back :=
  List.flatMap_append

def Noted (s : Schema) : Prop := ∀ path, Notes (walk note path s) s (s.nodes path)

theorem start_eq (path keyword key : String) :
    path ++ ("/" ++ keyword ++ "/") ++ key = path ++ "/" ++ s!"{keyword}/{key}" := by
  simp only [String.append_assoc]
  rfl

def itemChildren : Option (Items Schema) → List (String × Schema)
  | none => []
  | some (.single c) => [("items", c)]
  | some (.tuple list) => children.positions "items" list

def additionalChildren : Option (Additional Schema) → List (String × Schema)
  | some (.schema c) => [("additionalProperties", c)]
  | _ => []

theorem children_eq (s : Schema) : s.children = children.table "properties" s.properties ++
    children.table "patternProperties" s.patternProperties ++
    children.table "definitions" s.definitions ++ itemChildren s.items ++
    additionalChildren s.additionalProperties ++ children.positions "allOf" (s.allOf.getD []) ++
    children.positions "anyOf" (s.anyOf.getD []) ++
    children.positions "oneOf" (s.oneOf.getD []) ++ s.not.toList.map (fun c => ("not", c)) :=
  rfl

section

variable {path : String}

theorem notes_walkEntries {table : Entries Schema} (h : ∀ key c, (key, c) ∈ table → Noted c)
    (keyword : String) :
    Notes (walkEntries note (path ++ ("/" ++ keyword ++ "/")) table) table
      (nodesOf path (children.table keyword (some table))) := by
  induction table with
  | nil => exact notes_pure []
  | cons first rest ih =>
    obtain ⟨key, c⟩ := first
    have hfirst := h key c List.mem_cons_self (path ++ ("/" ++ keyword ++ "/") ++ key)
    have hrest := ih fun key c hc => h key c (List.mem_cons_of_mem _ hc)
    rw [start_eq] at hfirst
    rw [walkEntries, start_eq]
    exact hfirst.bind (hrest.map rfl)

theorem notes_walkTable {entries : Option (Entries Schema)}
    (h : ∀ table, entries = some table → ∀ key c, (key, c) ∈ table → Noted c) (keyword : String) :
    Notes (walkTable note (path ++ ("/" ++ keyword ++ "/")) entries) entries
      (nodesOf path (children.table keyword entries)) := by
  cases entries with
  | none => exact notes_pure none
  | some table => exact (notes_walkEntries (h table rfl) keyword).map rfl

theorem notes_walkList {list : List Schema} (h : ∀ s ∈ list, Noted s) (keyword : String)
    (i : Nat) :
    Notes (walkList note (path ++ ("/" ++ keyword ++ "/")) i list) list
      (nodesOf path (list.mapIdx fun j child => (s!"{keyword}/{i + j}", child))) := by
  induction list generalizing i with
  | nil => exact notes_pure []
  | cons first rest ih =>
    have hfirst := h first List.mem_cons_self (path ++ ("/" ++ keyword ++ "/") ++ toString i)
    have hrest := ih (fun s hs => h s (List.mem_cons_of_mem _ hs)) (i + 1)
    have hshift (j : Nat) : i + 1 + j = i + (j + 1) := by omega
    simp only [hshift] at hrest
    rw [start_eq] at hfirst
    rw [walkList, start_eq, List.mapIdx_cons]
    exact hfirst.bind (hrest.map rfl)

theorem notes_walkPositions {list : List Schema} (h : ∀ s ∈ list, Noted s) (keyword : String) :
    Notes (walkList note (path ++ ("/" ++ keyword ++ "/")) 0 list) list
      (nodesOf path (children.positions keyword list)) := by
  have hnotes : Notes (walkList note (path ++ ("/" ++ keyword ++ "/")) 0 list) list
      (nodesOf path (list.mapIdx fun j child => (s!"{keyword}/{0 + j}", child))) :=
    notes_walkList h keyword 0
  simp only [Nat.zero_add] at hnotes
  exact hnotes

theorem notes_walkLists {members : Option (List Schema)}
    (h : ∀ list, members = some list → ∀ s ∈ list, Noted s) (keyword : String) :
    Notes (walkLists note (path ++ ("/" ++ keyword ++ "/")) members) members
      (nodesOf path (children.positions keyword (members.getD []))) := by
  cases members with
  | none => exact notes_pure none
  | some list => exact (notes_walkPositions (h list rfl) keyword).map rfl

theorem notes_single {c : Schema} (h : Noted c) (keyword : String) :
    Notes (walk note (path ++ ("/" ++ keyword)) c) c (nodesOf path [(keyword, c)]) := by
  rw [nodesOf, List.flatMap_singleton, String.append_assoc]
  exact h _

theorem notes_walkNode {node : Option Schema} (h : ∀ s, node = some s → Noted s)
    (keyword : String) :
    Notes (walkNode note (path ++ ("/" ++ keyword)) node) node
      (nodesOf path (node.toList.map fun child => (keyword, child))) := by
  cases node with
  | none => exact notes_pure none
  | some c => exact (notes_single (h c rfl) keyword).map rfl

theorem notes_walkItems {items : Option (Items Schema)}
    (hsingle : ∀ s, items = some (.single s) → Noted s)
    (htuple : ∀ list, items = some (.tuple list) → ∀ s ∈ list, Noted s) :
    Notes (walkItems note (path ++ "/items") items) items
      (nodesOf path (itemChildren items)) := by
  cases items with
  | none => exact notes_pure none
  | some items =>
    cases items with
    | single c => exact (notes_single (hsingle c rfl) "items").map rfl
    | tuple list =>
      have hlist : Notes (walkList note (path ++ ("/" ++ "items" ++ "/")) 0 list) list
          (nodesOf path (children.positions "items" list)) :=
        notes_walkPositions (htuple list rfl) "items"
      rw [walkItems, String.append_assoc]
      exact hlist.map rfl

theorem notes_walkAdditional {additional : Option (Additional Schema)}
    (h : ∀ s, additional = some (.schema s) → Noted s) :
    Notes (walkAdditional note (path ++ "/additionalProperties") additional) additional
      (nodesOf path (additionalChildren additional)) := by
  cases additional with
  | none => exact notes_pure none
  | some additional =>
    cases additional with
    | allowed verdict => exact notes_pure _
    | schema c => exact (notes_single (h c rfl) "additionalProperties").map rfl

end

theorem notes_walk {s : Schema} (h : ∀ c, Child c s → Noted c) (path : String) :
    Notes (walk note path s) s (nodesOf path s.children ++ [(path, s)]) := by
  obtain ⟨kw, props, patterns, defs, items, additional, allOf, anyOf, oneOf, not⟩ := s
  unfold walk children
  simp only [nodesOf_append, List.append_assoc]
  apply (notes_walkTable (fun _ ht _ _ hc => h _ (.property ht hc)) "properties").bind
  apply (notes_walkTable (fun _ ht _ _ hc => h _ (.pattern ht hc)) "patternProperties").bind
  apply (notes_walkTable (fun _ ht _ _ hc => h _ (.definition ht hc)) "definitions").bind
  apply (notes_walkItems (fun _ ht => h _ (.item ht)) fun _ ht _ hc => h _ (.position ht hc)).bind
  apply (notes_walkAdditional fun _ ht => h _ (.additional ht)).bind
  apply (notes_walkLists (fun _ ht _ hc => h _ (.allOf ht hc)) "allOf").bind
  apply (notes_walkLists (fun _ ht _ hc => h _ (.anyOf ht hc)) "anyOf").bind
  apply (notes_walkLists (fun _ ht _ hc => h _ (.oneOf ht hc)) "oneOf").bind
  apply (notes_walkNode (fun _ ht => h _ (.not ht)) "not").bind
  exact notes_note _ _

theorem Notes.nodes_eq {path : String} {s : Schema} {entries : List (String × Schema)}
    (h : Notes (walk note path s) s entries) : s.nodes path = entries := by
  rw [Schema.nodes_eq, h, List.append_nil, List.reverse_reverse]

theorem noted (s : Schema) : Noted s := by
  apply child_induction
  intro s ih path
  have hnotes := notes_walk ih path
  rwa [hnotes.nodes_eq]

/-- The nodes of a schema are those of its children, one after the other, and then the schema. -/
theorem nodes_children (path : String) (s : Schema) :
    s.nodes path = nodesOf path s.children ++ [(path, s)] :=
  (notes_walk (fun c _ => noted c) path).nodes_eq

section

variable {m : Type → Type} [Monad m] [LawfulMonad m] (act : String → Schema → m Unit)

/-- One step lists nodes, and the other acts on those nodes in the same order. -/
def acting : Pairing (StateM (List (String × Schema))) m where
  rel R x y := ∃ a b entries, R a b ∧ Notes x a entries ∧
    y = do
      entries.forM fun e => act e.1 e.2
      return b
  pure := by
    intro α β R a b hR
    exact ⟨a, b, [], hR, notes_pure a, by simp⟩
  bind := by
    intro α β γ δ R S x y f g hx hf
    obtain ⟨a, b, entries, hR, hnotes, rfl⟩ := hx
    obtain ⟨c, d, entries', hS, hnotes', hg⟩ := hf a b hR
    exact ⟨c, d, entries ++ entries', hS, hnotes.bind hnotes', by simp [hg]⟩

def keeping (path : String) (node : Schema) : m Schema := do
  act path node
  return node

theorem parallel_keeping :
    Parallel (acting act) note (keeping act) (fun _ => True) Eq Eq where
  below _ _ := trivial
  node := by
    intro path s t t' _ hst htt'
    cases hst.eq
    cases htt'.eq
    exact ⟨s, s, [(path, s)], ⟨rfl, rfl⟩, notes_note path s, by simp [keeping]⟩

/-- Visits that leave the nodes as they are act on them in the order of the list, and the schema is
what it was. -/
theorem walk_eq_forM (path : String) (s : Schema) :
    walk (keeping act) path s = do
      (s.nodes path).forM fun e => act e.1 e.2
      return s := by
  obtain ⟨t, t', entries, ⟨rfl, rfl⟩, hnotes, hwalk⟩ := (parallel_keeping act).walk path s trivial
  rw [hwalk, hnotes.nodes_eq]

end

end SchemaCatalog.Schema
