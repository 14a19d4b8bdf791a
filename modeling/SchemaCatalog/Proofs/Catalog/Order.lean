import SchemaCatalog.Proofs.Catalog.Objects
import SchemaCatalog.Proofs.Catalog.Rejections
import SchemaCatalog.Proofs.Schema.Algebra

namespace SchemaCatalog

theorem Entries.keys_addMissing_nil {α : Type} (new : Entries α) :
    keys (addMissing [] new) = new.keys.eraseDups := by
  rw [keys_addMissing, appendNew_eq]
  simp

namespace Catalog

theorem types_offerAll {c : Catalog} {types : List CatalogType} (h : c.rejected types = []) :
    (Builder.offerAll c types).types = c.types ++ types := by
  induction types generalizing c with
  | nil => exact (List.append_nil _).symm
  | cons type rest ih =>
    rw [rejected] at h
    split at h
    · cases h
    · rename_i hfree
      have hadd : (c.addType type).types = c.types ++ [type] := by rw [addType, if_neg hfree]
      have hrest : (Builder.offerAll (c.addType type) rest).types =
          (c.addType type).types ++ rest := ih h
      rw [hadd, List.append_assoc] at hrest
      exact hrest

end Catalog

namespace Builder

variable {b : Builder} {p p' : Progress} {built : List (Request × CatalogType)}

/-- The types that a document declares: its own, if it describes a value, and its definitions. -/
def declared (b : Builder) (root : Schema) : Entries Schema :=
  (if Setup.describesValue root then [(b.rootName, root)] else []) ++
    (root.definitions.getD []).map fun entry => (b.typeName entry.1, entry.2)

/-- While there are no types, a request is entered unless its name was requested before. -/
theorem ensures_request_missing {r : Request} (hempty : p.catalog = {}) :
    Ensures (request r) p (fun _ p' => p'.catalog = {} ∧
      p'.requested = p.requested.addMissing [r.entry]) fun _ => True := by
  refine (ensures_request r p).mono (fun _ p' hp' => ?_) fun _ _ => trivial
  have hknown (h : p.Answers r.name) : p.requested.addMissing [r.entry] = p.requested := by
    have hhas : p.requested.has r.name = true := by
      rcases h with htype | hhas
      · rw [hempty] at htype
        cases htype
      · exact hhas
    exact if_pos hhas
  cases hp'.2 with
  | known hlookup _ => exact ⟨hempty, (hknown (Progress.answers_of_lookup hlookup)).symm⟩
  | collides hanswers _ => exact ⟨hempty, (hknown hanswers).symm⟩
  | enters hnew =>
    have hfree : ¬ p.requested.has r.name = true := fun hhas => hnew (.inr hhas)
    have hadded : p.requested.addMissing [r.entry] = p.requested ++ [r.entry] := if_neg hfree
    exact ⟨hempty, hadded.symm⟩

theorem ensures_requestDefinitions_missing (definitions : List (String × Schema))
    (hempty : p.catalog = {}) :
    Ensures (b.requestDefinitions definitions) p (fun _ p' => p'.requested =
      p.requested.addMissing (definitions.map fun entry => (b.typeName entry.1, entry.2)))
      fun _ => True := by
  induction definitions generalizing p with
  | nil => exact ensures_pure rfl
  | cons entry rest ih =>
    obtain ⟨key, s⟩ := entry
    apply ensures_bind (ensures_request_missing hempty)
    intro _ p₁ hp₁
    obtain ⟨hempty₁, hrequested⟩ := hp₁
    refine (ih hempty₁).mono (fun _ p' hp' => ?_) fun _ he => he
    rw [hp', hrequested, ← Entries.addMissing_append]
    rfl

theorem ensures_requestTypes_missing (root : Schema) :
    Ensures (Setup.requestTypes b .jsonSchema root) {} (fun _ p' =>
      p'.requested = Entries.addMissing [] (b.declared root)) fun _ => True := by
  unfold Setup.requestTypes declared
  dsimp only
  rw [beq_self_eq_true, Bool.true_and]
  by_cases hroot : Setup.describesValue root = true
  · rw [if_pos hroot, if_pos hroot]
    apply ensures_bind (ensures_request_missing rfl)
    intro _ p₁ hp₁
    obtain ⟨hempty, hrequested⟩ := hp₁
    refine (ensures_requestDefinitions_missing _ hempty).mono (fun _ p' hp' => ?_) fun _ he => he
    rw [hp', hrequested, Entries.addMissing_append]
    rfl
  · rw [if_neg hroot, if_neg hroot]
    exact ensures_requestDefinitions_missing _ rfl

theorem Drains.requested_prefix (h : Drains b p built p') : p.requested <+: p'.requested := by
  induction h with
  | done _ => exact List.prefix_rfl
  | next _ hrun _ ih =>
    obtain ⟨new, _, hrequested⟩ := (run_buildType hrun).1.requests
    exact (hrequested ▸ List.prefix_append _ _).trans ih

theorem Drains.of_idle (h : Drains b p built p') (hidle : p.pending = []) : built = [] := by
  cases h with
  | done _ => rfl
  | next hpending _ _ =>
    rw [hidle] at hpending
    cases hpending

theorem Adds.of_nil {offered : List CatalogType} (h : Adds b p [] offered p') :
    offered = [] ∧ p' = p := by
  cases h
  exact ⟨rfl, rfl⟩

/-- Building some of what waits, from the first request on. -/
inductive Builds (b : Builder) : Progress → List (Request × CatalogType) → Progress → Prop
  | none {p : Progress} : Builds b p [] p
  | next {p p₁ p' : Progress} {r rest type built} : p.pending = r :: rest →
    (b.buildType r).run { p with pending := rest } = .ok (type, p₁) →
    Builds b (p₁.addType type) built p' → Builds b p ((r, type) :: built) p'

/-- When those of `before` are built, a name stands for nothing, and it is by building `e` that it
comes to stand for what the request says. -/
def FirstAsks (b : Builder) (start : Progress) (before : List (Request × CatalogType))
    (e : Request × CatalogType) (r : Request) : Prop :=
  ∃ p rest p', Builds b start before p ∧ p.pending = e.1 :: rest ∧
    (b.buildType e.1).run { p with pending := rest } = .ok (e.2, p') ∧
    p.requested.lookup r.name = none ∧ p'.requested.lookup r.name = some r.schema

/-- A request that a step enters had a name that stood for nothing. -/
theorem lookup_of_entered {r : Request} (h : p.Queues p') (hdistinct : p.requested.keys.Nodup)
    (hold : r ∉ p.pending) (hnew : r ∈ p'.pending) :
    p.requested.lookup r.name = none ∧ p'.requested.lookup r.name = some r.schema := by
  obtain ⟨new, hpending, hrequested⟩ := h.requests
  have hentered : r ∈ new := by
    rw [hpending] at hnew
    exact (List.mem_append.1 hnew).resolve_left hold
  have hentry : (r.name, r.schema) ∈ new.map Request.entry := List.mem_map_of_mem hentered
  have hkeys := h.distinct hdistinct
  refine ⟨?_, Entries.lookup_of_mem hkeys (hrequested ▸ List.mem_append_right _ hentry)⟩
  rw [hrequested, Entries.keys, List.map_append] at hkeys
  have hfree : r.name ∉ p.requested.keys := by
    intro hname
    have hkey : r.name ∈ (new.map Request.entry).map Prod.fst := List.mem_map_of_mem hentry
    exact (List.nodup_append.1 hkeys).2.2 _ hname _ hkey rfl
  apply Option.not_isSome_iff_eq_none.1
  intro hhas
  exact hfree (List.contains_iff_mem.1 (Entries.has_eq_contains _ _ ▸ hhas))

/-- A request that did not wait at the start was entered by building one of those before it. -/
theorem Drains.exists_firstAsks (h : Drains b p built p') (hdistinct : p.requested.keys.Nodup)
    {earlier later : List (Request × CatalogType)} {e : Request × CatalogType}
    (hbuilt : built = earlier ++ e :: later) (hstart : e.1 ∉ p.pending) :
    ∃ before d after, earlier = before ++ d :: after ∧ b.FirstAsks p before d e.1 := by
  induction h generalizing earlier with
  | done _ => exact absurd hbuilt.symm (List.append_ne_nil_of_right_ne_nil _ (List.cons_ne_nil _ _))
  | @next p p₁ p' r rest type built hpending hrun hdrains ih =>
    have hqueues := (run_buildType hrun).1
    have hrest : e.1 ∉ rest := by
      intro hmem
      exact hstart (hpending ▸ List.mem_cons_of_mem r hmem)
    cases earlier with
    | nil =>
      -- the first to be built waited at the start
      cases hbuilt
      exact absurd (hpending ▸ List.mem_cons_self) hstart
    | cons first earlier =>
      obtain ⟨hfirst, hbuilt'⟩ := List.cons.inj hbuilt
      subst hfirst
      by_cases hnew : e.1 ∈ p₁.pending
      · have hasked := lookup_of_entered hqueues hdistinct hrest hnew
        exact ⟨[], (r, type), earlier, rfl, p, rest, p₁, .none, hpending, hrun, hasked⟩
      · obtain ⟨before, d, after, hearlier, q, more, q', hbuilds, hasks⟩ :=
          ih (hqueues.distinct hdistinct) hbuilt' hnew
        subst hearlier
        exact ⟨(r, type) :: before, d, after, rfl, q, more, q', .next hpending hrun hbuilds, hasks⟩

end Builder

namespace Setup

open Builder

variable {setup : Setup} {document : Json} {c : Compilation}

namespace Course

variable (course : setup.Course document c)

/-- The types of the catalog stand in the order in which they were asked for. -/
structure Ordered : Prop where
  types : c.catalog.types = course.built.map Prod.snd
  /-- First those that the document declares, once each, with the schemas declared first. -/
  declared : (course.builder.declared course.normal).keys.eraseDups <+: c.catalog.typeNames ∧
    Entries.addMissing [] (course.builder.declared course.normal) <+:
      course.built.map (·.1.entry)
  /-- Then each after the one that asked for it. -/
  others {earlier later : List (Request × CatalogType)} {e : Request × CatalogType} :
    course.built = earlier ++ e :: later →
    e.2.name ∉ (course.builder.declared course.normal).keys →
    ∃ before d after, earlier = before ++ d :: after ∧
      course.builder.FirstAsks course.asked before d e.1

theorem nothing_added (h : Dialect.detect document = .jsonSchema) :
    course.added = [] ∧ course.rest = [] := by
  have hsites := course.sites_eq
  rw [h] at hsites
  have hnone : course.sites = [] := (Except.ok.inj hsites).symm
  have hadds := course.adds
  rw [hnone] at hadds
  obtain ⟨hadded, hoperated⟩ := hadds.of_nil
  have hrest := course.drainsRest
  rw [hoperated] at hrest
  exact ⟨hadded, hrest.of_idle course.drains.settled.pending⟩

theorem queued_asked : course.asked.requested = course.asked.pending.map Request.entry := by
  have hstart : ({} : Progress).Queued [] := rfl
  exact hstart.queues course.queues_asked

theorem requested_asked (h : Dialect.detect document = .jsonSchema) :
    course.asked.requested = Entries.addMissing [] (course.builder.declared course.normal) := by
  have hasks := course.asks
  rw [h] at hasks
  exact (ensures_requestTypes_missing course.normal).of_ok hasks

theorem ordered (h : Dialect.detect document = .jsonSchema) : course.Ordered := by
  obtain ⟨hadded, hrest⟩ := course.nothing_added h
  have hnames : course.built.map (·.2.name) = Entries.keys (course.built.map (·.1.entry)) := by
    rw [Entries.keys, List.map_map]
    exact List.map_congr_left fun e he => course.name_built (List.mem_append_left _ he)
  have htypes : c.catalog.types = course.built.map Prod.snd := by
    rw [course.types, offered, hadded, hrest, List.append_nil, List.map_nil, List.append_nil]
    exact Catalog.types_offerAll course.rejected_built
  have hdeclared : Entries.addMissing [] (course.builder.declared course.normal) <+:
      course.built.map (·.1.entry) := by
    rw [← course.requested_asked h, ← course.requested_drained]
    exact course.drains.requested_prefix
  refine ⟨htypes, ⟨?_, hdeclared⟩, fun {earlier later e} hbuilt hother => ?_⟩
  · have hcatalog : c.catalog.typeNames = Entries.keys (course.built.map (·.1.entry)) := by
      rw [← hnames, Catalog.typeNames, htypes, List.map_map]
      rfl
    rw [← Entries.keys_addMissing_nil, hcatalog]
    exact hdeclared.map Prod.fst
  · apply course.drains.exists_firstAsks (course.queues_asked.distinct List.nodup_nil) hbuilt
    intro hpending
    have he : e ∈ course.built := hbuilt ▸ List.mem_append_right _ List.mem_cons_self
    have hname : e.1.name ∈ course.asked.requested.keys := by
      rw [course.queued_asked]
      exact List.mem_map_of_mem (List.mem_map_of_mem hpending)
    rw [course.requested_asked h, Entries.keys_addMissing_nil, List.mem_eraseDups] at hname
    exact hother (course.name_built (List.mem_append_left _ he) ▸ hname)

theorem ordersFields {e : Request × CatalogType} (h : e ∈ course.built ++ course.rest)
    (hform : formOf e.1 = .object) : course.builder.OrdersFields e.1 e.2 := by
  obtain ⟨p₀, p₁, hrun, _⟩ := course.run_built h
  obtain ⟨r, type⟩ := e
  dsimp only at hrun hform
  rw [buildType, hform] at hrun
  obtain ⟨object, q, hobject, hrun⟩ := run_bind hrun
  cases hrun
  -- the description that the type gets afterwards does not matter
  have horders : course.builder.OrdersFields r object := ordersFields_of_buildObject hobject
  exact horders

end Course

/-- What comes of a document stands in the order of the document. The types of a schema are in the
catalog as they were asked for, first by the document and then by each other; and so are the fields
of every object. -/
theorem compile_ordered (h : setup.compile document = .ok c) :
    Nonempty (setup.Course document c) ∧ ∀ course : setup.Course document c,
      (Dialect.detect document = .jsonSchema → course.Ordered) ∧
      ∀ e ∈ course.built ++ course.rest, formOf e.1 = .object →
        course.builder.OrdersFields e.1 e.2 := by
  refine ⟨compile_course h, fun course => ⟨course.ordered, fun e he hform => ?_⟩⟩
  exact course.ordersFields he hform

def nestedOrder : Json :=
  .object [("title", .string "Order"), ("type", .string "object"),
    ("properties", .object [
      ("address", .object [("properties", .object [
        ("city", .object [("type", .string "string")])])]),
      ("items", .object [("$ref", .string "#/definitions/Item")])]),
    ("definitions", .object [
      ("Item", .object [("properties", .object [("sku", .object [("type", .string "string")])])])])]

theorem compile_ordered_nestedOrder : ∃ c, compile {} nestedOrder = .ok c ∧
    c.catalog.typeNames = ["Order", "Item", "Address"] ∧
    ∃ course : Course {} nestedOrder c, course.Ordered := by
  have hresult : (compile {} nestedOrder).toOption.map (·.catalog.typeNames) =
      some ["Order", "Item", "Address"] := by
    decide +kernel
  obtain ⟨c, hc, hnames⟩ := Option.map_eq_some_iff.1 hresult
  obtain ⟨⟨course⟩, hcourse⟩ := compile_ordered (eq_ok_of_toOption hc)
  exact ⟨c, eq_ok_of_toOption hc, hnames, course, (hcourse course).1 (by decide +kernel)⟩

end Setup

end SchemaCatalog
