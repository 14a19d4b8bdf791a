import SchemaCatalog.Proofs.Steps
import SchemaCatalog.Catalog.FieldShape

namespace SchemaCatalog

namespace Progress

/-- There is a type of the name, or one was requested. -/
def Answers (p : Progress) (name : String) : Prop :=
  p.catalog.hasType name = true ∨ p.requested.has name = true

/-- Every named type among `refs` is there or requested. -/
def Covers (p : Progress) (refs : List TypeRef) : Prop :=
  ∀ name, .named name ∈ refs → p.Answers name

/-- Nothing has happened to the catalog, and every new request still waits. -/
structure Asks (p p' : Progress) : Prop where
  catalog : p'.catalog = p.catalog
  pending : p.pending ⊆ p'.pending
  requested : ∀ name, p.requested.has name = true → p'.requested.has name = true
  fresh : ∀ name, p'.requested.has name = true →
    p.requested.has name = true ∨ ∃ r ∈ p'.pending, r.name = name

variable {p p' p'' : Progress} {refs refs' : List TypeRef}

theorem Asks.refl (p : Progress) : Asks p p :=
  ⟨rfl, List.Subset.refl _, fun _ h => h, fun _ h => .inl h⟩

theorem Asks.trans (h : Asks p p') (h' : Asks p' p'') : Asks p p'' where
  catalog := h'.catalog.trans h.catalog
  pending := List.Subset.trans h.pending h'.pending
  requested name hname := h'.requested name (h.requested name hname)
  fresh name hname := by
    cases h'.fresh name hname with
    | inr hnew => exact .inr hnew
    | inl hname =>
      refine (h.fresh name hname).imp (fun h => h) fun hnew => ?_
      obtain ⟨r, hr, hrname⟩ := hnew
      exact ⟨r, h'.pending hr, hrname⟩

theorem Asks.answers {name : String} (h : Asks p p') (hname : p.Answers name) : p'.Answers name :=
  hname.imp (fun hname => by rw [h.catalog]; exact hname) (h.requested name)

theorem Asks.covers (h : Asks p p') (hrefs : p.Covers refs) : p'.Covers refs :=
  fun name hname => h.answers (hrefs name hname)

theorem covers_nil (p : Progress) : p.Covers [] := nofun

theorem Covers.subset (h : p.Covers refs) (hsubset : refs' ⊆ refs) : p.Covers refs' :=
  fun name hname => h name (hsubset hname)

theorem Covers.append (h : p.Covers refs) (h' : p.Covers refs') : p.Covers (refs ++ refs') :=
  fun name hname => (List.mem_append.1 hname).elim (h name) (h' name)

end Progress

def FieldSpec.targets (spec : FieldSpec) : List TypeRef := spec.type :: spec.mapValueType.toList

namespace Builder

variable {α β : Type} {given : List TypeRef}

/-- Where the types `given` are there or requested, the step asks for all that its result refers
to. -/
def AsksFor (given : List TypeRef) (x : BuildM α) (refs : α → List TypeRef) : Prop :=
  ∀ p : Progress, p.Covers given →
    Ensures x p (fun a p' => p.Asks p' ∧ p'.Covers (refs a)) fun _ => True

theorem asksFor_pure {a : α} {refs : α → List TypeRef} (h : refs a ⊆ given) :
    AsksFor given (pure a) refs :=
  fun p hp => ensures_pure ⟨.refl p, hp.subset h⟩

theorem asksFor_bind {x : BuildM α} {f : α → BuildM β} {mid : α → List TypeRef}
    {refs : β → List TypeRef} (hx : AsksFor given x mid)
    (hf : ∀ a, AsksFor (given ++ mid a) (f a) refs) : AsksFor given (x >>= f) refs := by
  intro p hp
  apply ensures_bind (hx p hp)
  intro a p' h
  obtain ⟨hasks, hcovers⟩ := h
  refine (hf a p' ((hasks.covers hp).append hcovers)).mono (fun b p'' h => ?_) fun _ h => h
  exact ⟨hasks.trans h.1, h.2⟩

theorem asksFor_then {x : BuildM α} {f : α → BuildM β} {refs : β → List TypeRef}
    (hx : AsksFor given x fun _ => []) (hf : ∀ a, AsksFor given (f a) refs) :
    AsksFor given (x >>= f) refs :=
  asksFor_bind hx fun a => by rw [List.append_nil]; exact hf a

theorem asksFor_lift (x : Outcome α) :
    AsksFor given (liftM x : BuildM α) fun _ => [] :=
  fun p _ => ensures_lift (fun _ _ => ⟨.refl p, p.covers_nil⟩) fun _ _ => trivial

theorem asksFor_modify {f : Progress → Progress} (h : ∀ p : Progress, p.Asks (f p)) :
    AsksFor given (modify f : BuildM PUnit) fun _ => [] :=
  fun p _ => ensures_modify ⟨h p, Progress.covers_nil _⟩

theorem AsksFor.imp {given' : List TypeRef} {x : BuildM α} {refs refs' : α → List TypeRef}
    (h : AsksFor given x refs) (hgiven : given ⊆ given') (hrefs : ∀ a, refs' a ⊆ refs a) :
    AsksFor given' x refs' :=
  fun p hp => (h p (hp.subset hgiven)).mono (fun a _ h => ⟨h.1, h.2.subset (hrefs a)⟩) fun _ h => h

theorem asksFor_record (d : Diagnostic) : AsksFor given (record d) fun _ => [] :=
  asksFor_modify fun _ => ⟨rfl, List.Subset.refl _, fun _ h => h, fun _ h => .inl h⟩

theorem asksFor_warn (code path message : String) :
    AsksFor given (warn code path message) fun _ => [] :=
  asksFor_record _

theorem asksFor_warn_none (code path message : String) {refs : Option α → List TypeRef}
    (h : refs none = []) :
    AsksFor given (do warn code path message; return none) refs :=
  asksFor_then (asksFor_warn code path message) fun _ => asksFor_pure (by simp [h])

/-- A request asks for the type that it names, which is the one that it gives. -/
theorem asksFor_request (r : Request) :
    AsksFor given (request r) fun type => [type, .named r.name] := by
  intro p _
  have hanswer {p' : Progress} (hasks : p.Asks p') (hname : p'.Answers r.name) :
      Ensures (pure (.named r.name) : BuildM TypeRef) p'
        (fun type p' => p.Asks p' ∧ p'.Covers [type, .named r.name]) fun _ => True := by
    refine ensures_pure ⟨hasks, fun name h => ?_⟩
    have heq : name = r.name := by simpa using h
    exact heq ▸ hname
  have hcollide (path message : String) (hname : p.Answers r.name) :
      Ensures (collide path message) p (fun _ p' => p.Asks p' ∧ p'.Answers r.name)
        fun _ => True :=
    (asksFor_warn _ path message p p.covers_nil).mono
      (fun _ _ h => ⟨h.1, h.1.answers hname⟩) fun _ h => h
  unfold request
  apply ensures_get_bind
  split
  · rename_i known hknown
    have hname : p.Answers r.name := .inr (by rw [Entries.has, hknown]; rfl)
    split
    · exact ensures_bind (hcollide _ _ hname) fun _ _ h => hanswer h.1 h.2
    · exact hanswer (.refl p) hname
  · split
    · rename_i htype
      exact ensures_bind (hcollide _ _ (.inl htype)) fun _ _ h => hanswer h.1 h.2
    · have hhas (name : String) : (p.requested ++ [(r.name, r.schema)]).has name = true ↔
          p.requested.has name = true ∨ name = r.name := by
        simp [Entries.has, List.lookup_append, Option.isSome_or, Entries.lookup_cons]
      apply ensures_set_bind
      refine hanswer ⟨rfl, List.subset_append_left _ _, fun name h => (hhas name).2 (.inl h), ?_⟩
        (.inr ((hhas r.name).2 (.inr rfl)))
      intro name h
      refine ((hhas name).1 h).imp (fun h => h) fun h => ?_
      exact ⟨r, List.mem_append_right _ (List.mem_singleton_self r), h.symm⟩

end Builder

/-- The remark says that types collide under the name. -/
def Diagnostic.Collides (d : Diagnostic) (name : String) : Prop :=
  d.code = "name-collision" ∧
    (d.message = s!"type \"{name}\" already stands for a different schema" ∨
      d.message = s!"type name \"{name}\" is already taken")

/-- The construction with a request that its name now stands for. -/
def Progress.enter (p : Progress) (r : Request) : Progress :=
  { p with requested := p.requested ++ [(r.name, r.schema)], pending := p.pending ++ [r] }

/-- What a request does. A name that something answers to is compared or remarked on, and any other
is entered. -/
inductive Progress.Receives (p : Progress) (r : Request) : Progress → Prop
  | known {s : Schema} : p.requested.lookup r.name = some s → (s == r.schema) = true →
    p.Receives r p
  | collides {d : Diagnostic} : p.Answers r.name → d.Collides r.name →
    p.Receives r { p with diagnostics := p.diagnostics ++ [d] }
  | enters : ¬ p.Answers r.name → p.Receives r { p with
      requested := p.requested ++ [(r.name, r.schema)]
      pending := p.pending ++ [r] }

theorem Progress.answers_of_lookup {p : Progress} {name : String} {s : Schema}
    (h : p.requested.lookup name = some s) : p.Answers name :=
  .inr (by rw [Entries.has, h]; rfl)

theorem Progress.lookup_of_not_answers {p : Progress} {name : String} (h : ¬ p.Answers name) :
    p.requested.lookup name = none :=
  Option.not_isSome_iff_eq_none.1 fun hname => h (.inr hname)

theorem Progress.lookup_enter {p : Progress} {r : Request} (h : ¬ p.Answers r.name) :
    (p.enter r).requested.lookup r.name = some r.schema := by
  rw [enter, List.lookup_append, lookup_of_not_answers h, Entries.lookup_cons, if_pos rfl]
  rfl

theorem Builder.ensures_request (r : Request) (p : Progress) :
    Ensures (request r) p (fun type p' => type = .named r.name ∧ p.Receives r p')
      fun _ => False := by
  unfold request
  apply ensures_get_bind
  split
  · rename_i known hknown
    split
    · have hanswers := Progress.answers_of_lookup hknown
      exact ensures_modify_bind (ensures_pure ⟨rfl, .collides hanswers ⟨rfl, .inl rfl⟩⟩)
    · rename_i hsame
      exact ensures_pure ⟨rfl, .known hknown (by simpa using hsame)⟩
  · rename_i hfree
    split
    · rename_i htype
      exact ensures_modify_bind (ensures_pure ⟨rfl, .collides (.inl htype) ⟨rfl, .inr rfl⟩⟩)
    · rename_i htype
      have hnone : ¬ p.Answers r.name := by
        rintro (h | h)
        · exact htype h
        · rw [Entries.has, hfree] at h
          cases h
      exact ensures_set_bind (ensures_pure ⟨rfl, .enters hnone⟩)

end SchemaCatalog
