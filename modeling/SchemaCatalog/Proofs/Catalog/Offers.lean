import SchemaCatalog.Proofs.Catalog.Course
import SchemaCatalog.Proofs.Catalog.Failure

namespace SchemaCatalog

namespace Catalog

variable {c c' : Catalog} {types : List CatalogType}

theorem types_offerAll_congr (h : c.types = c'.types) :
    (Builder.offerAll c types).types = (Builder.offerAll c' types).types := by
  induction types generalizing c c' with
  | nil => exact h
  | cons type rest ih =>
    have hadd : (c.addType type).types = (c'.addType type).types := by
      have htype : c.hasType type.name = c'.hasType type.name := by
        rw [hasType, hasType, type?, type?, h]
      unfold addType
      rw [htype]
      split
      · exact h
      · rw [h]
    exact ih hadd

theorem methods_offerAll (c : Catalog) (types : List CatalogType) :
    (Builder.offerAll c types).methods = c.methods := by
  induction types generalizing c with
  | nil => rfl
  | cons type rest ih => exact (ih _).trans (methods_addType c type)

theorem offerAll_append (c : Catalog) (types types' : List CatalogType) :
    Builder.offerAll c (types ++ types') = Builder.offerAll (Builder.offerAll c types) types' :=
  List.foldl_append

theorem types_prefix_offerAll : c.types <+: (Builder.offerAll c types).types := by
  induction types generalizing c with
  | nil => exact List.prefix_rfl
  | cons type rest ih =>
    refine List.IsPrefix.trans ?_ (ih (c := c.addType type))
    rw [addType]
    split
    · exact List.prefix_rfl
    · exact List.prefix_append _ _

end Catalog

/-- All requests that were entered are those of `done`, and then those that wait. -/
def Progress.Queued (entered : List (String × Schema)) (p : Progress) : Prop :=
  p.requested = entered ++ p.pending.map Request.entry

theorem Progress.Queued.queues {entered : List (String × Schema)} {p p' : Progress}
    (h : p.Queued entered) (hqueues : p.Queues p') : p'.Queued entered := by
  obtain ⟨new, hpending, hrequested⟩ := hqueues.requests
  rw [Queued, hrequested, hpending, h, List.map_append, List.append_assoc]

namespace Builder

variable {b : Builder} {p p' : Progress}

theorem run_buildType {r : Request} {type : CatalogType}
    (h : (b.buildType r).run p = .ok (type, p')) : p.Queues p' ∧ type.name = r.name :=
  ⟨(onlyQueues_buildType b r p).of_ok h, (ensures_buildType_name b r p).of_ok h⟩

/-- What building the requests of `built` has done. -/
structure Settled (b : Builder) (built : List (Request × CatalogType)) (p p' : Progress) :
    Prop where
  pending : p'.pending = []
  catalog : p'.catalog = offerAll p.catalog (built.map Prod.snd)
  diagnostics : p.diagnostics <+: p'.diagnostics
  lookup : ∀ name s, p.requested.lookup name = some s → p'.requested.lookup name = some s
  queued : ∀ entered, p.Queued entered → p'.Queued (entered ++ built.map (·.1.entry))
  distinct : p.requested.keys.Nodup → p'.requested.keys.Nodup
  names : ∀ e ∈ built, e.2.name = e.1.name

theorem Drains.settled {built : List (Request × CatalogType)} (h : Drains b p built p') :
    Settled b built p p' := by
  induction h with
  | done hnone =>
    exact ⟨hnone, rfl, List.prefix_rfl, fun _ _ h => h, fun _ h => by simpa using h, fun h => h,
      nofun⟩
  | @next p p₁ p' r rest type built hpending hrun _ ih =>
    obtain ⟨hqueues, hname⟩ := run_buildType hrun
    refine ⟨ih.pending, ?_, hqueues.diagnostics.trans ih.diagnostics,
      fun name s hname => ih.lookup name s (hqueues.lookup hname), fun entered hentered => ?_,
      fun hdistinct => ih.distinct (hqueues.distinct hdistinct), fun e he => ?_⟩
    · rw [ih.catalog, Progress.addType, hqueues.catalog]
      rfl
    · -- the request that is taken from the queue joins those that were entered before
      have htaken : ({ p with pending := rest } : Progress).Queued (entered ++ [r.entry]) := by
        rw [Progress.Queued, hentered, hpending, List.map_cons, List.append_assoc]
        rfl
      have hbuilt : p₁.Queued (entered ++ [r.entry]) := htaken.queues hqueues
      have hlater := ih.queued _ hbuilt
      rwa [List.append_assoc] at hlater
    · rcases List.mem_cons.1 he with heq | he
      · rw [heq]
        exact hname
      · exact ih.names e he

theorem queues_operation {site : Operation.Site} {name : String} {shared : List Json}
    {parameters responses : CatalogType} {p₁ p₂ : Progress}
    (hparameters : (site.parametersType b name shared).run p = .ok (parameters, p₁))
    (hresponses : (site.responsesType b name).run p₁ = .ok (responses, p₂)) : p.Queues p₂ :=
  ((Operation.Site.onlyQueues_parametersType site b name shared p).of_ok hparameters).trans
    ((Operation.Site.onlyQueues_responsesType site b name p₁).of_ok hresponses)

/-- What adding methods with the types of `offered` has done. -/
structure Added (offered : List CatalogType) (p p' : Progress) : Prop where
  types : p'.catalog.types = (offerAll p.catalog offered).types
  methods : p'.catalog.methods.flatMap Method.typeNames =
    p.catalog.methods.flatMap Method.typeNames ++ offered.map (·.name)
  diagnostics : p.diagnostics <+: p'.diagnostics
  queued : ∀ entered, p.Queued entered → p'.Queued entered
  distinct : p.requested.keys.Nodup → p'.requested.keys.Nodup

theorem Adds.added {sites : List (Operation.Site × List Json)} {offered : List CatalogType}
    (h : Adds b p sites offered p') : Added offered p p' := by
  induction h with
  | done => exact ⟨rfl, by simp, List.prefix_rfl, fun _ h => h, fun h => h⟩
  | @next p p₁ p₂ p₃ p' site shared rest parameters responses method offered hparameters
      hresponses hmethod _ ih =>
    have hqueues : p.Queues p₂ := queues_operation hparameters hresponses
    obtain ⟨hp₃, hnames⟩ := run_method_of hparameters hresponses hmethod
    subst hp₃
    have hqueued : ∀ entered, p.Queued entered → p₂.Queued entered :=
      fun _ hentered => hentered.queues hqueues
    refine ⟨?_, ?_, hqueues.diagnostics.trans ih.diagnostics,
      fun entered hentered => ih.queued entered (hqueued entered hentered),
      fun hdistinct => ih.distinct (hqueues.distinct hdistinct)⟩
    · rw [ih.types, Catalog.offerAll_append, ← hqueues.catalog]
      exact Catalog.types_offerAll_congr rfl
    · rw [ih.methods, List.map_append, ← List.append_assoc]
      congr 1
      change (_ ++ [method]).flatMap Method.typeNames = _
      rw [List.flatMap_append, Catalog.methods_offerAll, hqueues.catalog, List.flatMap_singleton,
        hnames]

theorem Moves.keeps_requestDefinitions {R : Progress → Progress → Prop}
    (h : Moves b (fun _ => True) (fun _ => True) fun _ => R)
    (definitions : List (String × Schema)) : Keeps R (b.requestDefinitions definitions) := by
  induction definitions with
  | nil => exact h.keeps_pure ()
  | cons entry rest ih =>
    obtain ⟨key, s⟩ := entry
    have hrequest : Keeps R (Builder.request
        { name := b.typeName key, stub := key, path := s!"#/definitions/{key}", schema := s }) :=
      fun p => h.request p (inside_true s) (Request.apt_of_plain rfl) ⟨key, rfl⟩
    exact h.keeps_bind hrequest fun _ => ih

theorem onlyQueues_requestDefinitions (definitions : List (String × Schema)) :
    OnlyQueues (b.requestDefinitions definitions) :=
  (moves_queues b).keeps_requestDefinitions definitions

end Builder

namespace Setup

open Builder

/-- Requests the types of a root in normal form: its own, if it describes a value, and those of its
definitions. -/
def requestTypes (b : Builder) (dialect : Dialect) (root : Schema) : BuildM Unit := do
  if dialect == .jsonSchema && describesValue root then
    let _ ← b.requestRoot root
  b.requestDefinitions (root.definitions.getD [])

def operationSites (document : Json) (dialect : Dialect) :
    Outcome (List (Operation.Site × List Json)) :=
  if dialect.hasOperations then Operation.sites document dialect else return []

/-- The course of a compilation: what it starts from, the states between its parts, and what is
built and added in each. -/
structure Course (setup : Setup) (document : Json) (c : Compilation) where
  scope : Scope
  normal : Schema
  /-- With the types of the document requested. -/
  asked : Progress
  built : List (Request × CatalogType)
  /-- With these and what they need built. -/
  drained : Progress
  sites : List (Operation.Site × List Json)
  added : List CatalogType
  /-- With the types and methods of the operations added. -/
  operated : Progress
  rest : List (Request × CatalogType)
  progress : Progress
  scope_eq : setup.scope document (Dialect.detect document) = .ok scope
  normal_eq : setup.normalize document = .ok normal
  asks : (requestTypes (.new scope) (Dialect.detect document) normal).run {} = .ok ((), asked)
  drains : Drains (.new scope) asked built drained
  sites_eq : operationSites document (Dialect.detect document) = .ok sites
  adds : Adds (.new scope) drained sites added operated
  drainsRest : Drains (.new scope) operated rest progress
  result : c = ⟨progress.catalog, progress.diagnostics, Dialect.detect document⟩

theorem build_eq (b : Builder) (document : Json) (dialect : Dialect) (root : Schema) :
    build b document dialect root = (do
      requestTypes b dialect root
      b.drain
      if dialect.hasOperations then
        let _ ← Operation.addMethods b document dialect
        b.drain) := by
  unfold build requestTypes
  dsimp only
  by_cases hroot : (dialect == .jsonSchema && describesValue root) = true
  · rw [if_pos hroot, if_pos hroot, bind_assoc]
  · rw [if_neg hroot, if_neg hroot]

/-- Every compilation that succeeds has a course. -/
theorem compile_course {setup : Setup} {document : Json} {c : Compilation}
    (h : setup.compile document = .ok c) : Nonempty (setup.Course document c) := by
  rw [compile_eq] at h
  obtain ⟨scope, hscope, h⟩ := bind_eq_ok h
  obtain ⟨normal, hnormal, h⟩ := bind_eq_ok h
  obtain ⟨⟨_, progress⟩, hbuild, h⟩ := bind_eq_ok h
  cases h
  rw [build_eq] at hbuild
  obtain ⟨_, asked, hasks, hbuild⟩ := run_bind hbuild
  obtain ⟨_, drained, hdrain, hbuild⟩ := run_bind hbuild
  obtain ⟨built, hdrains⟩ := (ensures_drain_drains asked).of_ok hdrain
  by_cases hoperations : (Dialect.detect document).hasOperations = true
  · rw [if_pos hoperations] at hbuild
    obtain ⟨_, operated, hmethods, hbuild⟩ := run_bind hbuild
    obtain ⟨sites, added, hsites, _, hadds⟩ :=
      (ensures_addPathMethods_adds _ drained).of_ok hmethods
    obtain ⟨rest, hrest⟩ := (ensures_drain_drains operated).of_ok hbuild
    exact ⟨⟨scope, normal, asked, built, drained, sites, added, operated, rest, progress, hscope,
      hnormal, hasks, hdrains, (if_pos hoperations).trans hsites, hadds, hrest, rfl⟩⟩
  · rw [if_neg hoperations] at hbuild
    cases hbuild
    -- without operations nothing waits after the first part
    have hnone := hdrains.settled.pending
    exact ⟨⟨scope, normal, asked, built, progress, [], [], progress, [], progress, hscope, hnormal,
      hasks, hdrains, if_neg hoperations, .done, .done hnone, rfl⟩⟩

theorem onlyQueues_requestTypes (b : Builder) (dialect : Dialect) (root : Schema) :
    OnlyQueues (requestTypes b dialect root) := by
  unfold requestTypes
  dsimp only
  split
  · exact onlyQueues_bind (queues_request (Request.apt_of_plain rfl)) fun _ =>
      onlyQueues_requestDefinitions _
  · exact onlyQueues_requestDefinitions _

namespace Course

variable {setup : Setup} {document : Json} {c : Compilation} (course : setup.Course document c)

/-- The types that are offered to the catalog, in order. -/
def offered : List CatalogType :=
  course.built.map Prod.snd ++ course.added ++ course.rest.map Prod.snd

theorem queues_asked : ({} : Progress).Queues course.asked :=
  (onlyQueues_requestTypes _ _ _ {}).of_ok course.asks

theorem catalog_eq : c.catalog = course.progress.catalog :=
  congrArg Compilation.catalog course.result

theorem diagnostics_eq : c.diagnostics = course.progress.diagnostics :=
  congrArg Compilation.diagnostics course.result

theorem types : c.catalog.types = (offerAll {} course.offered).types := by
  rw [course.catalog_eq, course.drainsRest.settled.catalog, offered, Catalog.offerAll_append,
    Catalog.offerAll_append]
  refine Catalog.types_offerAll_congr ?_
  rw [course.adds.added.types, course.drains.settled.catalog, course.queues_asked.catalog]

theorem methods : c.catalog.methods.flatMap Method.typeNames = course.added.map (·.name) := by
  rw [course.catalog_eq, course.drainsRest.settled.catalog, Catalog.methods_offerAll,
    course.adds.added.methods, course.drains.settled.catalog, Catalog.methods_offerAll,
    course.queues_asked.catalog]
  rfl

theorem queued_drained : course.drained.Queued (course.built.map (·.1.entry)) := by
  have hstart : ({} : Progress).Queued [] := rfl
  exact course.drains.settled.queued _ (hstart.queues course.queues_asked)

theorem requested_drained : course.drained.requested = course.built.map (·.1.entry) := by
  rw [course.queued_drained, course.drains.settled.pending, List.map_nil, List.append_nil]

theorem requested :
    course.progress.requested = (course.built ++ course.rest).map (·.1.entry) := by
  have hoperated := course.adds.added.queued _ course.queued_drained
  rw [course.drainsRest.settled.queued _ hoperated, course.drainsRest.settled.pending,
    List.map_append, List.map_nil, List.append_nil]

theorem distinct : course.progress.requested.keys.Nodup :=
  course.drainsRest.settled.distinct <| course.adds.added.distinct <|
    course.drains.settled.distinct <| course.queues_asked.distinct List.nodup_nil

theorem name_built {e : Request × CatalogType} (h : e ∈ course.built ++ course.rest) :
    e.2.name = e.1.name :=
  (List.mem_append.1 h).elim (course.drains.settled.names e) (course.drainsRest.settled.names e)

theorem names_built :
    (course.built ++ course.rest).map (·.2.name) = course.progress.requested.keys := by
  rw [course.requested, Entries.keys, List.map_map]
  exact List.map_congr_left fun e he => course.name_built he

theorem diagnostics : course.asked.diagnostics <+: c.diagnostics := by
  rw [course.diagnostics_eq]
  exact (course.drains.settled.diagnostics.trans course.adds.added.diagnostics).trans
    course.drainsRest.settled.diagnostics

end Course

end Setup

end SchemaCatalog
