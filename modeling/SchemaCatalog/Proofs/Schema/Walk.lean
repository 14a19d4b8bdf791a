import SchemaCatalog.Proofs.Steps
import SchemaCatalog.Proofs.Schema.Alike
import SchemaCatalog.Schema.Walk

namespace SchemaCatalog

/-- The place starts with the path. -/
def Starts (path place : String) : Prop := ∃ rest, place = path ++ rest

theorem Starts.refl (path : String) : Starts path path := ⟨"", String.append_empty.symm⟩

theorem starts_append (path rest : String) : Starts path (path ++ rest) := ⟨rest, rfl⟩

theorem Starts.trans {path path' place : String} (h : Starts path path')
    (h' : Starts path' place) : Starts path place := by
  obtain ⟨rest, rfl⟩ := h
  obtain ⟨rest', rfl⟩ := h'
  exact ⟨rest ++ rest', String.append_assoc⟩

namespace Schema

section

variable {m : Type → Type} [Monad m] {σ ε : Type} [Runs m σ ε]

/-- What a visit does at one node, where `P` holds of the nodes it meets and their paths, `I` of the
states, and `R` relates a node as it was to what it has become. -/
structure VisitsAt (visit : String → Schema → m Schema) (P : String → Schema → Prop)
    (I : σ → Prop) (R : σ → Schema → Schema → Prop) (bad : ε → Prop) : Prop where
  below {path path' : String} {s c : Schema} : P path s → Child c s → Starts path path' →
    P path' c
  node {path : String} {s t : Schema} {st : σ} : P path s → I st → Alike (R st) s t →
    Ensures (visit path t) st
      (fun u st' => (I st' ∧ ∀ a b, R st a b → R st' a b) ∧ R st' s u) bad

/-- The same where `P` is about the nodes alone. -/
structure Visits (visit : String → Schema → m Schema) (P : Schema → Prop) (I : σ → Prop)
    (R : σ → Schema → Schema → Prop) (bad : ε → Prop) : Prop where
  below {s c : Schema} : P s → Child c s → P c
  node {path : String} {s t : Schema} {st : σ} : P s → I st → Alike (R st) s t →
    Ensures (visit path t) st
      (fun u st' => (I st' ∧ ∀ a b, R st a b → R st' a b) ∧ R st' s u) bad

def After (I : σ → Prop) (R : σ → Schema → Schema → Prop) (st st' : σ) : Prop :=
  I st' ∧ ∀ a b, R st a b → R st' a b

theorem After.refl {I : σ → Prop} {R : σ → Schema → Schema → Prop} {st : σ} (h : I st) :
    After I R st st :=
  ⟨h, fun _ _ h => h⟩

theorem After.trans {I : σ → Prop} {R : σ → Schema → Schema → Prop} {st₁ st₂ st₃ : σ}
    (h : After I R st₁ st₂) (h' : After I R st₂ st₃) : After I R st₁ st₃ :=
  ⟨h'.1, fun a b hab => h'.2 a b (h.2 a b hab)⟩

variable {visit : String → Schema → m Schema} {P : String → Schema → Prop} {I : σ → Prop}
  {R : σ → Schema → Schema → Prop} {bad : ε → Prop}

/-- The schema can be met at every path that starts with this one. -/
def Met (P : String → Schema → Prop) (path : String) (s : Schema) : Prop :=
  ∀ path', Starts path path' → P path' s

theorem Met.append {path : String} {s : Schema} (h : Met P path s) (rest : String) :
    Met P (path ++ rest) s :=
  fun path' hpath' => h path' ((starts_append path rest).trans hpath')

mutual

theorem VisitsAt.walk (h : VisitsAt visit P I R bad) (path : String) :
    (s : Schema) → (st : σ) → P path s → I st →
    Ensures (walk visit path s) st (fun t st' => After I R st st' ∧ R st' s t) bad
  | ⟨kw, props, patterns, defs, items, additional, allOf, anyOf, oneOf, not⟩, st, hP, hI => by
    have hbelow {c : Schema} (hc : Child c
        ⟨kw, props, patterns, defs, items, additional, allOf, anyOf, oneOf, not⟩)
        (rest : String) : Met P (path ++ rest) c :=
      Met.append (fun _ hpath' => h.below hP hc hpath') rest
    unfold Schema.walk
    apply ensures_bind (h.walkTable _ props (fun _ hp _ _ hc => hbelow (.property hp hc) _) hI)
    intro props' st₁ hwalk
    obtain ⟨h₁, hprops⟩ := hwalk
    apply ensures_bind
      (h.walkTable _ patterns (fun _ hp _ _ hc => hbelow (.pattern hp hc) _) h₁.1)
    intro patterns' st₂ hwalk
    obtain ⟨h₂, hpatterns⟩ := hwalk
    apply ensures_bind (h.walkTable _ defs (fun _ hp _ _ hc => hbelow (.definition hp hc) _) h₂.1)
    intro defs' st₃ hwalk
    obtain ⟨h₃, hdefs⟩ := hwalk
    refine ensures_bind (h.walkItems _ items (fun _ hp => hbelow (.item hp) _)
      (fun _ hp _ hc => hbelow (.position hp hc) _) h₃.1) ?_
    intro items' st₄ hwalk
    obtain ⟨h₄, hitems⟩ := hwalk
    apply ensures_bind
      (h.walkAdditional _ additional (fun _ hp => hbelow (.additional hp) _) h₄.1)
    intro additional' st₅ hwalk
    obtain ⟨h₅, hadditional⟩ := hwalk
    apply ensures_bind (h.walkLists _ allOf (fun _ hp _ hc => hbelow (.allOf hp hc) _) h₅.1)
    intro allOf' st₆ hwalk
    obtain ⟨h₆, hallOf⟩ := hwalk
    apply ensures_bind (h.walkLists _ anyOf (fun _ hp _ hc => hbelow (.anyOf hp hc) _) h₆.1)
    intro anyOf' st₇ hwalk
    obtain ⟨h₇, hanyOf⟩ := hwalk
    apply ensures_bind (h.walkLists _ oneOf (fun _ hp _ hc => hbelow (.oneOf hp hc) _) h₇.1)
    intro oneOf' st₈ hwalk
    obtain ⟨h₈, honeOf⟩ := hwalk
    apply ensures_bind (h.walkNode _ not (fun _ hp => hbelow (.not hp) _) h₈.1)
    intro not' st₉ hwalk
    obtain ⟨h₉, hnot⟩ := hwalk
    have h₇' := h₈.trans h₉
    have h₆' := h₇.trans h₇'
    have h₅' := h₆.trans h₆'
    have h₄' := h₅.trans h₅'
    have h₃' := h₄.trans h₄'
    have h₂' := h₃.trans h₃'
    have h₁' := h₂.trans h₂'
    have hbefore := h₁.trans h₁'
    have halike : Alike (R st₉)
        ⟨kw, props, patterns, defs, items, additional, allOf, anyOf, oneOf, not⟩
        ⟨kw, props', patterns', defs', items', additional', allOf', anyOf', oneOf', not'⟩ :=
      { keywords := rfl
        properties := optionRel_mono hprops fun _ _ h => h.mono h₁'.2
        patternProperties := optionRel_mono hpatterns fun _ _ h => h.mono h₂'.2
        definitions := optionRel_mono hdefs fun _ _ h => h.mono h₃'.2
        items := optionRel_mono hitems fun _ _ h => h.mono h₄'.2
        additionalProperties := optionRel_mono hadditional fun _ _ h => h.mono h₅'.2
        allOf := optionRel_mono hallOf fun _ _ h => h.imp h₆'.2
        anyOf := optionRel_mono hanyOf fun _ _ h => h.imp h₇'.2
        oneOf := optionRel_mono honeOf fun _ _ h => h.imp h₉.2
        not := hnot }
    exact (h.node hP hbefore.1 halike).mono
      (fun _ _ hvisit => ⟨hbefore.trans hvisit.1, hvisit.2⟩) fun _ he => he

theorem VisitsAt.walkNode (h : VisitsAt visit P I R bad) (path : String) :
    (node : Option Schema) → {st : σ} → (∀ s, node = some s → Met P path s) → I st →
    Ensures (walkNode visit path node) st
      (fun t st' => After I R st st' ∧ Option.Rel (R st') node t) bad
  | none, st, _, hI => by
    unfold Schema.walkNode
    exact ensures_pure ⟨.refl hI, .none⟩
  | some s, st, hP, hI => by
    unfold Schema.walkNode
    apply ensures_bind (h.walk path s st (hP _ rfl _ (.refl path)) hI)
    intro t st' hwalk
    obtain ⟨hafter, ht⟩ := hwalk
    exact ensures_pure ⟨hafter, .some ht⟩

theorem VisitsAt.walkItems (h : VisitsAt visit P I R bad) (path : String) :
    (items : Option (Items Schema)) → {st : σ} → (∀ s, items = some (.single s) → Met P path s) →
    (∀ list, items = some (.tuple list) → ∀ s ∈ list, Met P path s) → I st →
    Ensures (walkItems visit path items) st
      (fun t st' => After I R st st' ∧ Option.Rel (AlikeItems (R st')) items t) bad
  | none, st, _, _, hI => by
    unfold Schema.walkItems
    exact ensures_pure ⟨.refl hI, .none⟩
  | some (.single s), st, hP, _, hI => by
    unfold Schema.walkItems
    apply ensures_bind (h.walk path s st (hP _ rfl _ (.refl path)) hI)
    intro t st' hwalk
    obtain ⟨hafter, ht⟩ := hwalk
    exact ensures_pure ⟨hafter, .some (.single ht)⟩
  | some (.tuple list), st, _, hP, hI => by
    unfold Schema.walkItems
    apply ensures_bind (h.walkList _ 0 list (fun s hs => (hP _ rfl s hs).append _) hI)
    intro t st' hwalk
    obtain ⟨hafter, ht⟩ := hwalk
    exact ensures_pure ⟨hafter, .some (.tuple ht)⟩

theorem VisitsAt.walkAdditional (h : VisitsAt visit P I R bad) (path : String) :
    (additional : Option (Additional Schema)) → {st : σ} →
    (∀ s, additional = some (.schema s) → Met P path s) → I st →
    Ensures (walkAdditional visit path additional) st
      (fun t st' => After I R st st' ∧ Option.Rel (AlikeAdditional (R st')) additional t) bad
  | none, st, _, hI => by
    unfold Schema.walkAdditional
    exact ensures_pure ⟨.refl hI, .none⟩
  | some (.allowed verdict), st, _, hI => by
    unfold Schema.walkAdditional
    exact ensures_pure ⟨.refl hI, .some .allowed⟩
  | some (.schema s), st, hP, hI => by
    unfold Schema.walkAdditional
    apply ensures_bind (h.walk path s st (hP _ rfl _ (.refl path)) hI)
    intro t st' hwalk
    obtain ⟨hafter, ht⟩ := hwalk
    exact ensures_pure ⟨hafter, .some (.schema ht)⟩

theorem VisitsAt.walkLists (h : VisitsAt visit P I R bad) (path : String) :
    (list : Option (List Schema)) → {st : σ} →
    (∀ members, list = some members → ∀ s ∈ members, Met P path s) → I st →
    Ensures (walkLists visit path list) st
      (fun t st' => After I R st st' ∧ Option.Rel (List.Forall₂ (R st')) list t) bad
  | none, st, _, hI => by
    unfold Schema.walkLists
    exact ensures_pure ⟨.refl hI, .none⟩
  | some members, st, hP, hI => by
    unfold Schema.walkLists
    apply ensures_bind (h.walkList path 0 members (hP _ rfl) hI)
    intro t st' hwalk
    obtain ⟨hafter, ht⟩ := hwalk
    exact ensures_pure ⟨hafter, .some ht⟩

theorem VisitsAt.walkList (h : VisitsAt visit P I R bad) (path : String) (i : Nat) :
    (list : List Schema) → {st : σ} → (∀ s ∈ list, Met P path s) → I st →
    Ensures (walkList visit path i list) st
      (fun t st' => After I R st st' ∧ List.Forall₂ (R st') list t) bad
  | [], st, _, hI => by
    unfold Schema.walkList
    exact ensures_pure ⟨.refl hI, .nil⟩
  | s :: rest, st, hP, hI => by
    unfold Schema.walkList
    apply ensures_bind (h.walk _ s st (hP _ List.mem_cons_self _ (starts_append _ _)) hI)
    intro t st₁ hwalk
    obtain ⟨h₁, ht⟩ := hwalk
    refine ensures_bind
      (h.walkList path (i + 1) rest (fun _ hc => hP _ (List.mem_cons_of_mem _ hc)) h₁.1) ?_
    intro rest' st₂ hwalk
    obtain ⟨h₂, hrest⟩ := hwalk
    exact ensures_pure ⟨h₁.trans h₂, .cons (h₂.2 _ _ ht) hrest⟩

theorem VisitsAt.walkTable (h : VisitsAt visit P I R bad) (path : String) :
    (table : Option (List (String × Schema))) → {st : σ} →
    (∀ entries, table = some entries → ∀ key c, (key, c) ∈ entries → Met P path c) → I st →
    Ensures (walkTable visit path table) st
      (fun t st' => After I R st st' ∧ Option.Rel (AlikeTable (R st')) table t) bad
  | none, st, _, hI => by
    unfold Schema.walkTable
    exact ensures_pure ⟨.refl hI, .none⟩
  | some entries, st, hP, hI => by
    unfold Schema.walkTable
    apply ensures_bind (h.walkEntries path entries (hP _ rfl) hI)
    intro entries' st' hwalk
    obtain ⟨hafter, hentries⟩ := hwalk
    exact ensures_pure ⟨hafter, .some hentries⟩

theorem VisitsAt.walkEntries (h : VisitsAt visit P I R bad) (path : String) :
    (entries : List (String × Schema)) → {st : σ} →
    (∀ key c, (key, c) ∈ entries → Met P path c) → I st →
    Ensures (walkEntries visit path entries) st
      (fun t st' => After I R st st' ∧ AlikeTable (R st') entries t) bad
  | [], st, _, hI => by
    unfold Schema.walkEntries
    exact ensures_pure ⟨.refl hI, .nil⟩
  | (key, s) :: rest, st, hP, hI => by
    unfold Schema.walkEntries
    have hmet : P (path ++ key) s := hP key s List.mem_cons_self _ (starts_append path key)
    apply ensures_bind (h.walk (path ++ key) s st hmet hI)
    intro t st₁ hwalk
    obtain ⟨h₁, ht⟩ := hwalk
    refine ensures_bind
      (h.walkEntries path rest (fun _ _ hc => hP _ _ (List.mem_cons_of_mem _ hc)) h₁.1) ?_
    intro rest' st₂ hwalk
    obtain ⟨h₂, hrest⟩ := hwalk
    exact ensures_pure ⟨h₁.trans h₂, .cons ⟨rfl, h₂.2 _ _ ht⟩ hrest⟩

end

theorem Visits.walk {P : Schema → Prop} (h : Visits visit P I R bad) (path : String) (s : Schema)
    (st : σ) (hP : P s) (hI : I st) :
    Ensures (walk visit path s) st (fun t st' => After I R st st' ∧ R st' s t) bad :=
  VisitsAt.walk ⟨fun hs hc _ => h.below hs hc, h.node⟩ path s st hP hI

theorem walk_error {path : String} {s : Schema} {st : σ} {e : ε}
    (h : Runs.outcome (Schema.walk visit path s) st = .error e) :
    ∃ place node st', Starts path place ∧ Runs.outcome (visit place node) st' = .error e := by
  have hvisits : VisitsAt visit (fun place _ => Starts path place) (fun _ => True)
      (fun _ _ _ => True)
      fun e => ∃ place node st', Starts path place ∧
        Runs.outcome (visit place node) st' = .error e := by
    refine ⟨fun hplace _ hstarts => hplace.trans hstarts, ?_⟩
    intro place s t st hplace _ _
    exact (ensures_outcome (visit place t) st).mono
      (fun _ _ _ => ⟨⟨trivial, fun _ _ h => h⟩, trivial⟩) fun e he => ⟨place, t, st, hplace, he⟩
  exact (hvisits.walk path s st (.refl path) trivial).of_error h

end

end Schema

end SchemaCatalog
