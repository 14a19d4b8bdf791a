import SchemaCatalog.Proofs.Catalog.Failure
import SchemaCatalog.Proofs.Catalog.Targets

namespace SchemaCatalog

namespace Builder

variable {b : Builder} {p p' : Progress}

def definitionRequest (b : Builder) (key : String) (definition : Schema) : Request where
  name := b.typeName key
  stub := key
  path := s!"#/definitions/{key}"
  schema := definition

/-- Wherever the name of the reference is free, a field for it queues the schema. -/
def QueuesTarget (b : Builder) (reference : String) (target : Schema) : Prop :=
  ∀ path (p : Progress), ¬ p.Answers (b.nameOf reference) →
    (b.referenceSpec reference path).run p = .ok (.one (.named (b.nameOf reference)),
      ({ p with followed := p.followed + 1 } : Progress).enter
        (b.targetRequest reference path target))

/-- The schema is queued for the key, where the name is free and no key before has the same one. -/
def QueuesDefinition (b : Builder) (definitions : List (String × Schema)) (key : String)
    (definition : Schema) : Prop :=
  ∃ before after, definitions = before ++ (key, definition) :: after ∧
    ∀ p : Progress, ¬ p.Answers (b.typeName key) →
      (∀ entry ∈ before, b.typeName entry.1 ≠ b.typeName key) →
        ∃ p', (b.requestDefinitions definitions).run p = .ok ((), p') ∧
          b.definitionRequest key definition ∈ p'.pending ∧
          p'.requested.lookup (b.typeName key) = some definition

theorem queuesTarget_of_target {reference : String} {s : Schema}
    (h : b.target reference = .ok s) : b.QueuesTarget reference s := by
  intro path p hfree
  rcases (ensures_referenceSpec_target reference path p).cases with
    ⟨_, _, hrun, rfl, _, henters⟩ | ⟨_, _, _, hnone⟩
  · obtain ⟨t, ht, rfl⟩ := henters hfree
    cases ht.symm.trans h
    exact hrun
  · exact absurd h (hnone s)

theorem ensures_request_free {r : Request} {name : String} (hname : r.name ≠ name)
    (h : ¬ p.Answers name) :
    Ensures (request r) p (fun _ p' => ¬ p'.Answers name) fun _ => False := by
  refine (ensures_request r p).mono (fun _ p' hp' => ?_) fun _ he => he
  cases hp'.2 with
  | known _ _ => exact h
  | collides _ _ => exact h
  | enters _ =>
    rintro (htype | hrequested)
    · exact h (.inl htype)
    · rcases has_requested.1 hrequested with hrequested | heq
      · exact h (.inr hrequested)
      · exact hname heq.symm

theorem ensures_requestDefinitions_runs (definitions : List (String × Schema)) (p : Progress) :
    Ensures (b.requestDefinitions definitions) p (fun _ p' => p.Queues p') fun _ => False := by
  have hruns : Ensures (b.requestDefinitions definitions) p (fun _ _ => True) fun _ => False :=
    (ensures_requestDefinitions_waiting (fun _ s _ => inside_true s) fun r _ =>
      inside_true r.schema).mono (fun _ _ _ => trivial) fun _ he => he
  exact ((onlyQueues_requestDefinitions definitions p).and hruns).mono (fun _ _ hp' => hp'.1)
    fun _ he => he.2

theorem ensures_requestDefinitions_enters {before after : List (String × Schema)} {key : String}
    {s : Schema} (hfree : ¬ p.Answers (b.typeName key))
    (hbefore : ∀ entry ∈ before, b.typeName entry.1 ≠ b.typeName key) :
    Ensures (b.requestDefinitions (before ++ (key, s) :: after)) p (fun _ p' =>
      b.definitionRequest key s ∈ p'.pending ∧
        p'.requested.lookup (b.typeName key) = some s) fun _ => False := by
  -- the keys before leave the name free, so that it is entered when its own key is met
  induction before generalizing p with
  | nil =>
    apply ensures_bind (ensures_request_fresh (r := b.definitionRequest key s) hfree)
    intro _ p₁ hp₁
    have hentered : p₁.requested.lookup (b.typeName key) = some s := by
      rw [hp₁.2]
      exact Progress.lookup_enter (r := b.definitionRequest key s) hfree
    have hwaits : b.definitionRequest key s ∈ p₁.pending := by
      rw [hp₁.2]
      exact List.mem_append_right _ (List.mem_singleton_self _)
    refine (ensures_requestDefinitions_runs after p₁).mono (fun _ p' hp' => ?_) fun _ he => he
    obtain ⟨new, hpending, _⟩ := hp'.requests
    exact ⟨hpending ▸ List.mem_append_left _ hwaits, hp'.lookup hentered⟩
  | cons entry rest ih =>
    obtain ⟨hentry, hrest⟩ := List.forall_mem_cons.1 hbefore
    apply ensures_bind (ensures_request_free hentry hfree)
    exact fun _ p₁ hp₁ => ih hp₁ hrest

theorem queuesDefinition_of_lookup {definitions : List (String × Schema)} {key : String}
    {s : Schema} (h : definitions.lookup key = some s) : b.QueuesDefinition definitions key s := by
  obtain ⟨before, after, hdefinitions, _⟩ := List.lookup_eq_some_iff.1 h
  refine ⟨before, after, hdefinitions, fun p hfree hbefore => ?_⟩
  rcases (ensures_requestDefinitions_enters hfree hbefore).cases with
    ⟨_, p', hrun, hp'⟩ | ⟨_, _, hfalse⟩
  · exact ⟨p', hdefinitions ▸ hrun, hp'⟩
  · exact hfalse.elim

end Builder

namespace Schema

open Builder

variable {scope : Scope} {root normal : Schema}

/-- Each property, pattern and definition of a schema that has a normal form has one by itself, and
it stands under the same key of the normal form. So a reference to a definition, in a document that
`root` is as seen from there, leads to the definition of the normal form, and what is queued for the
reference is what is queued for the definition. Seen through a local reference a document is itself;
seen through the id that it declares, it is `root` only where its references have been qualified. -/
theorem normalize_entry (h : root.normalize scope = .ok normal) :
    (∀ place key c, root.under? place key = some c →
      ∃ c', c.normalize scope = .ok c' ∧ normal.under? place key = some c') ∧
    ∀ r document key c,
      scope.registry.get? (Registry.documentOf (Reference.parse r)) = some document →
      document.qualify (Reference.parse r).document = root →
      Reference.definitionKey? (Reference.parse r).segments = some key →
      document.under? .definitions key = some c →
      ∃ c', (scope.registry.expand r >>= normalize scope) = .ok c' ∧
        normal.under? .definitions key = some c' ∧
        ∀ b : Builder, b.scope = scope →
          b.QueuesTarget r c' ∧ b.QueuesDefinition (normal.definitions.getD []) key c' := by
  refine ⟨fun _ _ _ hc => entry_normalize h hc, fun r document key c hdocument hroot hkey hc => ?_⟩
  have hcopy : root.under? .definitions key = some (c.qualify (Reference.parse r).document) :=
    hroot ▸ entry_mapReferences hc
  obtain ⟨c', hc', hunder⟩ := entry_normalize h hcopy
  have hexpand := Registry.expand_definition hdocument hkey hc
  refine ⟨c', ?_, hunder, ?_⟩
  · rw [hexpand]
    exact hc'
  · rintro b rfl
    have htarget : b.target r = .ok c' := by
      rw [target, hexpand]
      exact hc'
    exact ⟨queuesTarget_of_target htarget, queuesDefinition_of_lookup hunder⟩

theorem normalize_entry_composed :
    ∃ normal, composed.normalize composedScope = .ok normal ∧
      (∃ c c', composed.under? .definitions "Pet" = some c ∧
        c.normalize composedScope = .ok c' ∧ normal.under? .definitions "Pet" = some c') ∧
      ∃ c', (composedScope.registry.expand "#/definitions/Pet" >>= normalize composedScope) =
        .ok c' ∧ normal.under? .definitions "Pet" = some c' ∧
        (Builder.new composedScope).QueuesTarget "#/definitions/Pet" c' ∧
        (Builder.new composedScope).QueuesDefinition (normal.definitions.getD []) "Pet" c' := by
  obtain ⟨normal, _, h, _, _⟩ := normalize_composed
  obtain ⟨hentry, hreference⟩ := normalize_entry h
  obtain ⟨c', hc', hunder⟩ := hentry .definitions "Pet" _ rfl
  refine ⟨normal, h, ⟨_, c', rfl, hc', hunder⟩, ?_⟩
  have hlocal : Reference.parse "#/definitions/Pet" = ⟨"", "/definitions/Pet"⟩ := by decide
  obtain ⟨c', hc', hunder, hqueues⟩ := hreference "#/definitions/Pet" composed "Pet" _
    (by rw [hlocal]; rfl) (by rw [hlocal]; exact qualify_empty composed) (by decide) rfl
  exact ⟨c', hc', hunder, hqueues _ rfl⟩

end Schema

end SchemaCatalog
