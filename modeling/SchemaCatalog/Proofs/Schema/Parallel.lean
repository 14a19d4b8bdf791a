import SchemaCatalog.Proofs.Schema.Alike
import SchemaCatalog.Schema.Walk

namespace SchemaCatalog

/-- A way to relate steps of two monads, given how their values are related, that sequences of steps
respect. -/
structure Pairing (m m' : Type → Type) [Monad m] [Monad m'] where
  rel {α β : Type} : (α → β → Prop) → m α → m' β → Prop
  pure {α β : Type} {R : α → β → Prop} {a : α} {b : β} : R a b → rel R (pure a) (pure b)
  bind {α β γ δ : Type} {R : α → β → Prop} {S : γ → δ → Prop} {x : m α} {y : m' β} {f : α → m γ}
    {g : β → m' δ} : rel R x y → (∀ a b, R a b → rel S (f a) (g b)) → rel S (x >>= f) (y >>= g)

namespace Schema

variable {m m' : Type → Type} [Monad m] [Monad m']

/-- What two visits do at one node, where `P` holds of the nodes as they were, `Q` relates them to
what the first visit makes of them, and `R` relates that to what the second one does. -/
structure Parallel (pairing : Pairing m m') (visit : String → Schema → m Schema)
    (visit' : String → Schema → m' Schema) (P : Schema → Prop) (Q R : Schema → Schema → Prop) :
    Prop where
  below {s c : Schema} : P s → Child c s → P c
  node {path : String} {s t t' : Schema} : P s → Alike Q s t → Alike R t t' →
    pairing.rel (fun u u' => Q s u ∧ R u u') (visit path t) (visit' path t')

variable {pairing : Pairing m m'} {visit : String → Schema → m Schema}
  {visit' : String → Schema → m' Schema} {P : Schema → Prop} {Q R : Schema → Schema → Prop}

mutual

theorem Parallel.walk (h : Parallel pairing visit visit' P Q R) (path : String) :
    (s : Schema) → P s →
    pairing.rel (fun t t' => Q s t ∧ R t t') (walk visit path s) (walk visit' path s)
  | ⟨kw, props, patterns, defs, items, additional, allOf, anyOf, oneOf, not⟩, hP => by
    unfold Schema.walk
    apply pairing.bind (h.walkTable _ props fun _ hp _ _ hc => h.below hP (.property hp hc))
    intro props₁ props₂ hprops
    apply pairing.bind (h.walkTable _ patterns fun _ hp _ _ hc => h.below hP (.pattern hp hc))
    intro patterns₁ patterns₂ hpatterns
    apply pairing.bind (h.walkTable _ defs fun _ hp _ _ hc => h.below hP (.definition hp hc))
    intro defs₁ defs₂ hdefs
    apply pairing.bind (h.walkItems _ items (fun _ hp => h.below hP (.item hp))
      fun _ hp _ hc => h.below hP (.position hp hc))
    intro items₁ items₂ hitems
    apply pairing.bind (h.walkAdditional _ additional fun _ hp => h.below hP (.additional hp))
    intro additional₁ additional₂ hadditional
    apply pairing.bind (h.walkLists _ allOf fun _ hp _ hc => h.below hP (.allOf hp hc))
    intro allOf₁ allOf₂ hallOf
    apply pairing.bind (h.walkLists _ anyOf fun _ hp _ hc => h.below hP (.anyOf hp hc))
    intro anyOf₁ anyOf₂ hanyOf
    apply pairing.bind (h.walkLists _ oneOf fun _ hp _ hc => h.below hP (.oneOf hp hc))
    intro oneOf₁ oneOf₂ honeOf
    apply pairing.bind (h.walkNode _ not fun _ hp => h.below hP (.not hp))
    intro not₁ not₂ hnot
    apply h.node hP
    -- each child is related to what it was, and to what the other walk makes of it
    · exact
        { keywords := rfl
          properties := hprops.1
          patternProperties := hpatterns.1
          definitions := hdefs.1
          items := hitems.1
          additionalProperties := hadditional.1
          allOf := hallOf.1
          anyOf := hanyOf.1
          oneOf := honeOf.1
          not := hnot.1 }
    · exact
        { keywords := rfl
          properties := hprops.2
          patternProperties := hpatterns.2
          definitions := hdefs.2
          items := hitems.2
          additionalProperties := hadditional.2
          allOf := hallOf.2
          anyOf := hanyOf.2
          oneOf := honeOf.2
          not := hnot.2 }

theorem Parallel.walkNode (h : Parallel pairing visit visit' P Q R) (path : String) :
    (node : Option Schema) → (∀ s, node = some s → P s) →
    pairing.rel (fun t t' => Option.Rel Q node t ∧ Option.Rel R t t')
      (walkNode visit path node) (walkNode visit' path node)
  | none, _ => pairing.pure ⟨.none, .none⟩
  | some s, hP => by
    unfold Schema.walkNode
    apply pairing.bind (h.walk path s (hP _ rfl))
    intro t t' ht
    exact pairing.pure ⟨.some ht.1, .some ht.2⟩

theorem Parallel.walkItems (h : Parallel pairing visit visit' P Q R) (path : String) :
    (items : Option (Items Schema)) → (∀ s, items = some (.single s) → P s) →
    (∀ list, items = some (.tuple list) → ∀ s ∈ list, P s) →
    pairing.rel (fun t t' => Option.Rel (AlikeItems Q) items t ∧ Option.Rel (AlikeItems R) t t')
      (walkItems visit path items) (walkItems visit' path items)
  | none, _, _ => pairing.pure ⟨.none, .none⟩
  | some (.single s), hP, _ => by
    unfold Schema.walkItems
    apply pairing.bind (h.walk path s (hP _ rfl))
    intro t t' ht
    exact pairing.pure ⟨.some (.single ht.1), .some (.single ht.2)⟩
  | some (.tuple list), _, hP => by
    unfold Schema.walkItems
    apply pairing.bind (h.walkList (path ++ "/") 0 list (hP _ rfl))
    intro t t' ht
    exact pairing.pure ⟨.some (.tuple ht.1), .some (.tuple ht.2)⟩

theorem Parallel.walkAdditional (h : Parallel pairing visit visit' P Q R) (path : String) :
    (additional : Option (Additional Schema)) → (∀ s, additional = some (.schema s) → P s) →
    pairing.rel
      (fun t t' =>
        Option.Rel (AlikeAdditional Q) additional t ∧ Option.Rel (AlikeAdditional R) t t')
      (walkAdditional visit path additional) (walkAdditional visit' path additional)
  | none, _ => pairing.pure ⟨.none, .none⟩
  | some (.allowed _), _ => pairing.pure ⟨.some .allowed, .some .allowed⟩
  | some (.schema s), hP => by
    unfold Schema.walkAdditional
    apply pairing.bind (h.walk path s (hP _ rfl))
    intro t t' ht
    exact pairing.pure ⟨.some (.schema ht.1), .some (.schema ht.2)⟩

theorem Parallel.walkLists (h : Parallel pairing visit visit' P Q R) (path : String) :
    (list : Option (List Schema)) → (∀ members, list = some members → ∀ s ∈ members, P s) →
    pairing.rel
      (fun t t' => Option.Rel (List.Forall₂ Q) list t ∧ Option.Rel (List.Forall₂ R) t t')
      (walkLists visit path list) (walkLists visit' path list)
  | none, _ => pairing.pure ⟨.none, .none⟩
  | some members, hP => by
    unfold Schema.walkLists
    apply pairing.bind (h.walkList path 0 members (hP _ rfl))
    intro t t' ht
    exact pairing.pure ⟨.some ht.1, .some ht.2⟩

theorem Parallel.walkList (h : Parallel pairing visit visit' P Q R) (path : String) (i : Nat) :
    (list : List Schema) → (∀ s ∈ list, P s) →
    pairing.rel (fun t t' => List.Forall₂ Q list t ∧ List.Forall₂ R t t')
      (walkList visit path i list) (walkList visit' path i list)
  | [], _ => pairing.pure ⟨.nil, .nil⟩
  | s :: rest, hP => by
    unfold Schema.walkList
    apply pairing.bind (h.walk _ s (hP _ List.mem_cons_self))
    intro t t' ht
    apply pairing.bind (h.walkList path (i + 1) rest fun _ hc => hP _ (List.mem_cons_of_mem _ hc))
    intro rest₁ rest₂ hrest
    exact pairing.pure ⟨.cons ht.1 hrest.1, .cons ht.2 hrest.2⟩

theorem Parallel.walkTable (h : Parallel pairing visit visit' P Q R) (path : String) :
    (table : Option (List (String × Schema))) →
    (∀ entries, table = some entries → ∀ key c, (key, c) ∈ entries → P c) →
    pairing.rel (fun t t' => Option.Rel (AlikeTable Q) table t ∧ Option.Rel (AlikeTable R) t t')
      (walkTable visit path table) (walkTable visit' path table)
  | none, _ => pairing.pure ⟨.none, .none⟩
  | some entries, hP => by
    unfold Schema.walkTable
    apply pairing.bind (h.walkEntries path entries (hP _ rfl))
    intro t t' ht
    exact pairing.pure ⟨.some ht.1, .some ht.2⟩

theorem Parallel.walkEntries (h : Parallel pairing visit visit' P Q R) (path : String) :
    (entries : List (String × Schema)) → (∀ key c, (key, c) ∈ entries → P c) →
    pairing.rel (fun t t' => AlikeTable Q entries t ∧ AlikeTable R t t')
      (walkEntries visit path entries) (walkEntries visit' path entries)
  | [], _ => pairing.pure ⟨.nil, .nil⟩
  | (key, s) :: rest, hP => by
    unfold Schema.walkEntries
    apply pairing.bind (h.walk (path ++ key) s (hP _ _ List.mem_cons_self))
    intro t t' ht
    apply pairing.bind
      (h.walkEntries path rest fun _ _ hc => hP _ _ (List.mem_cons_of_mem _ hc))
    intro rest₁ rest₂ hrest
    exact pairing.pure ⟨.cons ⟨rfl, ht.1⟩ hrest.1, .cons ⟨rfl, ht.2⟩ hrest.2⟩

end

end Schema

end SchemaCatalog
