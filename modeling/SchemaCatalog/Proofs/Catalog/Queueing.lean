import SchemaCatalog.Proofs.Catalog.Building
import SchemaCatalog.Proofs.Catalog.Requests
import SchemaCatalog.Operation.Methods

namespace SchemaCatalog

def Request.entry (r : Request) : String × Schema := (r.name, r.schema)

namespace Progress

def Apt (p : Progress) : Prop := ∀ r ∈ p.pending, r.Apt

/-- Only requests were added, each waiting at the end and entered in the table under a new name, and
diagnostics. -/
structure Queues (p p' : Progress) : Prop where
  catalog : p'.catalog = p.catalog
  diagnostics : p.diagnostics <+: p'.diagnostics
  requests : ∃ new, p'.pending = p.pending ++ new ∧
    p'.requested = p.requested ++ new.map Request.entry
  distinct : p.requested.keys.Nodup → p'.requested.keys.Nodup
  apt : p.Apt → p'.Apt

variable {p p' p'' : Progress}

theorem Queues.refl (p : Progress) : p.Queues p :=
  ⟨rfl, List.prefix_rfl, ⟨[], by simp⟩, fun h => h, fun h => h⟩

theorem Queues.trans (h : p.Queues p') (h' : p'.Queues p'') : p.Queues p'' := by
  obtain ⟨new, hpending, hrequested⟩ := h.requests
  obtain ⟨new', hpending', hrequested'⟩ := h'.requests
  refine ⟨h'.catalog.trans h.catalog, h.diagnostics.trans h'.diagnostics, ⟨new ++ new', ?_, ?_⟩,
    fun hdistinct => h'.distinct (h.distinct hdistinct), fun hapt => h'.apt (h.apt hapt)⟩
  · rw [hpending', hpending, List.append_assoc]
  · rw [hrequested', hrequested, List.map_append, List.append_assoc]

theorem Queues.lookup {name : String} {s : Schema} (h : p.Queues p')
    (hname : p.requested.lookup name = some s) : p'.requested.lookup name = some s := by
  obtain ⟨new, _, hrequested⟩ := h.requests
  rw [hrequested, List.lookup_append, hname]
  rfl

end Progress

namespace Builder

variable {α β : Type} {p : Progress}

theorem queues_record (d : Diagnostic) (p : Progress) :
    p.Queues { p with diagnostics := p.diagnostics ++ [d] } :=
  ⟨rfl, List.prefix_append _ _, ⟨[], by simp⟩, fun h => h, fun h => h⟩

theorem not_mem_keys {entries : Entries Schema} {name : String}
    (h : entries.lookup name = none) : name ∉ entries.keys := by
  intro hname
  obtain ⟨⟨key, s⟩, hmem, heq⟩ := List.mem_map.1 hname
  rw [List.lookup_eq_none_iff] at h
  simpa [heq.symm] using h _ hmem

theorem queues_request {r : Request} (hr : r.Apt) (p : Progress) :
    Ensures (request r) p (fun _ p' => p.Queues p') fun _ => True := by
  refine (ensures_request r p).mono (fun _ p' hp' => ?_) fun _ _ => trivial
  cases hp'.2 with
  | known _ _ => exact .refl p
  | collides _ _ => exact queues_record _ p
  | enters hnone =>
    refine ⟨rfl, List.prefix_rfl, ⟨[r], rfl, rfl⟩, fun hdistinct => ?_, fun hapt r' hr' => ?_⟩
    · have hfree := Progress.lookup_of_not_answers hnone
      rw [Entries.keys, List.map_append]
      refine List.nodup_append.2 ⟨hdistinct, by simp, fun x hx y hy heq => ?_⟩
      have hname : x = r.name := heq.trans (List.mem_singleton.1 hy)
      exact not_mem_keys hfree (hname ▸ hx)
    · refine (List.mem_append.1 hr').elim (hapt r') fun hnew => ?_
      exact List.mem_singleton.1 hnew ▸ hr

theorem queues_follow (b : Builder) (r path : String) (p : Progress) :
    Ensures (b.referenceSpec r path) p (fun _ p' => p.Queues p') fun _ => True := by
  unfold referenceSpec
  apply ensures_get_bind
  split
  · refine ensures_lift_bind (fun target _ => ?_) fun _ _ => trivial
    refine ensures_lift_bind (fun schema _ => ?_) fun _ _ => trivial
    apply ensures_modify_bind
    apply ensures_bind (queues_request (Request.apt_of_plain rfl) _)
    intro _ p' hp'
    exact ensures_pure ⟨hp'.catalog, hp'.diagnostics, hp'.requests, hp'.distinct, hp'.apt⟩
  · exact ensures_pure (.refl p)

theorem moves_queues (b : Builder) :
    Moves b (fun _ => True) (fun _ => True) fun _ => Progress.Queues where
  refl := .refl
  trans := .trans
  mono _ h := h
  record := queues_record
  request p _ hr _ := queues_request hr p
  follow path p _ := queues_follow b _ path p

def OnlyQueues (x : BuildM α) : Prop := ∀ p, Ensures x p (fun _ p' => p.Queues p') fun _ => True

theorem inside_true (s : Schema) : s.Inside fun _ => True := fun _ _ => trivial

theorem onlyQueues_pure (a : α) : OnlyQueues (pure a) := fun p => ensures_pure (.refl p)

theorem onlyQueues_bind {x : BuildM α} {f : α → BuildM β} (hx : OnlyQueues x)
    (hf : ∀ a, OnlyQueues (f a)) : OnlyQueues (x >>= f) := by
  intro p
  apply ensures_bind (hx p)
  intro a p' hp'
  exact (hf a p').mono (fun _ _ h => hp'.trans h) fun _ he => he

variable (b : Builder)

theorem onlyQueues_fieldFor (stub path : String) (s : Schema) :
    OnlyQueues (b.fieldFor stub path s) :=
  (moves_queues b).fieldFor s (inside_true s) stub path

theorem onlyQueues_buildType (r : Request) : OnlyQueues (b.buildType r) :=
  (moves_queues b).buildType (inside_true r.schema)

/-- The step only leads to states that are in the relation to the one before. -/
def Keeps (R : Progress → Progress → Prop) (x : BuildM α) : Prop :=
  ∀ p, Ensures x p (fun _ p' => R p p') fun _ => True

namespace Moves

variable {b} {R : Progress → Progress → Prop}
  (h : Moves b (fun _ => True) (fun _ => True) fun _ => R)

include h

theorem keeps_pure (a : α) : Keeps R (Pure.pure a) := fun p => ensures_pure (h.refl p)

theorem keeps_bind {x : BuildM α} {f : α → BuildM β} (hx : Keeps R x) (hf : ∀ a, Keeps R (f a)) :
    Keeps R (x >>= f) := by
  intro p
  apply ensures_bind (hx p)
  intro a p' hp'
  exact (hf a p').mono (fun _ _ hp'' => h.trans (m := 0) (n := 0) hp' hp'') fun _ he => he

theorem keeps_map {x : BuildM α} (hx : Keeps R x) (f : α → β) : Keeps R (do return f (← x)) :=
  h.keeps_bind hx fun a => h.keeps_pure (f a)

theorem keeps_lift (x : Outcome α) : Keeps R (liftM x) :=
  fun p => ensures_lift (fun _ _ => h.refl p) fun _ _ => trivial

theorem keeps_field (method name path : String) (schema : Schema) (description : Option String) :
    Keeps R (Operation.Site.field b method name path schema description) := by
  apply h.keeps_bind (h.keeps_lift _)
  intro schema
  exact h.keeps_map (h.fieldFor schema (inside_true schema) _ _) _

variable (site : Operation.Site) (method : String)

theorem keeps_parameterSlot (parameter : Json) :
    Keeps R (site.parameterSlot b method parameter) := by
  unfold Operation.Site.parameterSlot
  split
  · exact h.keeps_pure none
  · apply h.keeps_bind (h.keeps_lift _)
    intro schema
    cases schema with
    | none => exact h.keeps_pure none
    | some schema => exact h.keeps_map (h.keeps_field method _ _ schema _) _

theorem keeps_parameterSlots (parameters : List Json) :
    Keeps R (site.parameterSlots b method parameters) := by
  induction parameters with
  | nil => exact h.keeps_pure []
  | cons parameter rest ih =>
    apply h.keeps_bind (h.keeps_parameterSlot site method parameter)
    exact fun slot => h.keeps_map ih _

theorem keeps_bodySlot : Keeps R (site.bodySlot b method) := by
  unfold Operation.Site.bodySlot
  split
  · exact h.keeps_pure none
  · apply h.keeps_bind (h.keeps_lift _)
    intro body
    apply h.keeps_bind (h.keeps_lift _)
    intro schema
    cases schema with
    | none => exact h.keeps_pure none
    | some schema => exact h.keeps_map (h.keeps_field method _ _ schema _) _

theorem keeps_parametersType (shared : List Json) :
    Keeps R (site.parametersType b method shared) := by
  apply h.keeps_bind (h.keeps_lift _)
  intro parameters
  apply h.keeps_bind (h.keeps_parameterSlots site method parameters)
  intro slots
  exact h.keeps_map (h.keeps_bodySlot site method) _

theorem keeps_responseField (code : String) (response : Json) :
    Keeps R (site.responseField b method code response) := by
  apply h.keeps_bind (h.keeps_lift _)
  intro response
  apply h.keeps_bind (h.keeps_lift _)
  intro schema
  cases schema with
  | none => exact h.keeps_map (fun p => ensures_modify (h.record _ p)) _
  | some schema => exact h.keeps_field method code _ schema _

theorem keeps_responseFields (responses : List (String × Json)) :
    Keeps R (site.responseFields b method responses) := by
  induction responses with
  | nil => exact h.keeps_pure []
  | cons entry rest ih =>
    obtain ⟨code, response⟩ := entry
    apply h.keeps_bind (h.keeps_responseField site method code response)
    exact fun field => h.keeps_map ih _

theorem keeps_responsesType : Keeps R (site.responsesType b method) :=
  h.keeps_map (h.keeps_responseFields site method _) _

end Moves

end Builder

namespace Operation.Site

open Builder

variable (site : Site) (b : Builder) (method : String)

theorem onlyQueues_parametersType (shared : List Json) :
    OnlyQueues (site.parametersType b method shared) :=
  (moves_queues b).keeps_parametersType site method shared

theorem onlyQueues_responsesType : OnlyQueues (site.responsesType b method) :=
  (moves_queues b).keeps_responsesType site method

end Operation.Site

end SchemaCatalog
