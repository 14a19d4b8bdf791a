import SchemaCatalog.Proofs.Catalog.Offers

namespace SchemaCatalog

namespace Progress

def newSince (p p' : Progress) : List Request := p'.pending.drop p.pending.length

/-- Only new requests were entered, each waiting at the end and under a name of its own. -/
structure Enters (p p' : Progress) : Prop where
  pending : p'.pending = p.pending ++ p.newSince p'
  requested : p'.requested = p.requested ++ (p.newSince p').map Request.entry
  distinct : p.requested.keys.Nodup → p'.requested.keys.Nodup

variable {p p' p'' : Progress}

theorem newSince_eq {new : List Request} (h : p'.pending = p.pending ++ new) :
    p.newSince p' = new := by
  rw [newSince, h, List.drop_left]

theorem Enters.of_new {new : List Request} (hpending : p'.pending = p.pending ++ new)
    (hrequested : p'.requested = p.requested ++ new.map Request.entry)
    (hdistinct : p.requested.keys.Nodup → p'.requested.keys.Nodup) : p.Enters p' := by
  have hnew : p.newSince p' = new := newSince_eq hpending
  exact ⟨hnew.symm ▸ hpending, hnew.symm ▸ hrequested, hdistinct⟩

theorem Enters.refl (p : Progress) : p.Enters p :=
  .of_new (List.append_nil _).symm (List.append_nil _).symm fun h => h

theorem Enters.trans (h : p.Enters p') (h' : p'.Enters p'') : p.Enters p'' := by
  have hpending : p''.pending = p.pending ++ (p.newSince p' ++ p'.newSince p'') := by
    rw [h'.pending, h.pending, List.append_assoc]
  refine .of_new hpending ?_ fun hdistinct => h'.distinct (h.distinct hdistinct)
  rw [h'.requested, h.requested, List.map_append, List.append_assoc]

theorem Queues.enters (h : p.Queues p') : p.Enters p' := by
  obtain ⟨new, hpending, hrequested⟩ := h.requests
  exact .of_new hpending hrequested h.distinct

end Progress

namespace Builder

variable {b : Builder} {p p' : Progress}

theorem Adds.enters {sites : List (Operation.Site × List Json)} {offered : List CatalogType}
    (h : Adds b p sites offered p') : p.Enters p' := by
  induction h with
  | done => exact .refl _
  | @next p p₁ p₂ p₃ p' site shared rest parameters responses method offered hparameters
      hresponses hmethod _ ih =>
    have hqueues : p.Queues p₂ := queues_operation hparameters hresponses
    obtain ⟨hp₃, _⟩ := run_method_of hparameters hresponses hmethod
    subst hp₃
    -- the catalog gets types and a method in between, the queue is as it was
    have hsame : p₂.Enters { p₂ with catalog :=
        (offerAll p₂.catalog (withFields [parameters, responses])).addMethod method } :=
      .of_new (List.append_nil _).symm (List.append_nil _).symm fun h => h
    exact (hqueues.enters.trans hsame).trans ih

/-- What can be asked of a builder. -/
inductive Task where
  /-- The type of a root document. -/
  | root (root : Schema)
  /-- The types of definitions. -/
  | definitions (definitions : List (String × Schema))
  /-- What a field holds the values of a schema as. -/
  | field (stub path : String) (schema : Schema)
  /-- The methods of the operations of a document. -/
  | methods (document : Json) (dialect : Dialect)

def Task.run (b : Builder) : Task → BuildM Unit
  | .root s => do let _ ← b.requestRoot s
  | .definitions entries => b.requestDefinitions entries
  | .field stub path s => do let _ ← b.fieldFor stub path s
  | .methods document dialect => do let _ ← Operation.addMethods b document dialect

theorem Task.enters {task : Task} (h : (task.run b).run p = .ok ((), p')) : p.Enters p' := by
  cases task with
  | root s =>
    have honly : OnlyQueues (Task.run b (.root s)) :=
      onlyQueues_bind (queues_request (Request.apt_of_plain rfl)) fun _ => onlyQueues_pure ()
    exact ((honly p).of_ok h).enters
  | definitions entries =>
    have honly : OnlyQueues (Task.run b (.definitions entries)) :=
      onlyQueues_requestDefinitions entries
    exact ((honly p).of_ok h).enters
  | field stub path s =>
    have honly : OnlyQueues (Task.run b (.field stub path s)) :=
      onlyQueues_bind (onlyQueues_fieldFor b stub path s) fun _ => onlyQueues_pure ()
    exact ((honly p).of_ok h).enters
  | methods document dialect =>
    rw [Task.run] at h
    obtain ⟨_, _, hmethods, hpure⟩ := run_bind h
    cases hpure
    obtain ⟨_, _, _, _, hadds⟩ := (ensures_addPathMethods_adds _ p).of_ok hmethods
    exact hadds.enters

/-- The life of a builder up to a state: tasks are done and types are built for the requests that
wait, from the first on. `queued` lists the requests that were ever queued, in order, and `built`
those for which a type was built, with the types. A step that fails leaves no state. -/
inductive Life (b : Builder) :
    List Request → List (Request × CatalogType) → Progress → Prop
  | start : Life b [] [] {}
  | task {queued : List Request} {built : List (Request × CatalogType)} {p p' : Progress}
    {task : Task} : Life b queued built p → (task.run b).run p = .ok ((), p') →
    Life b (queued ++ p.newSince p') built p'
  | build {queued rest : List Request} {built : List (Request × CatalogType)} {p p₁ : Progress}
    {r : Request} {type : CatalogType} : Life b queued built p → p.pending = r :: rest →
    (b.buildType r).run { p with pending := rest } = .ok (type, p₁) →
    Life b (queued ++ ({ p with pending := rest } : Progress).newSince p₁) (built ++ [(r, type)])
      (p₁.addType type)

/-- What holds all through a life. What was queued was built, or it waits; its names are those that
were requested, once each; and every type was built under the name that was requested. -/
structure Ledger (queued : List Request) (built : List (Request × CatalogType))
    (p : Progress) : Prop where
  waiting : queued = built.map Prod.fst ++ p.pending
  requested : p.requested = queued.map Request.entry
  distinct : p.requested.keys.Nodup
  names : ∀ e ∈ built, e.2.name = e.1.name

variable {queued : List Request} {built : List (Request × CatalogType)}

theorem Ledger.names_nodup (h : Ledger queued built p) : (queued.map Request.name).Nodup := by
  have hkeys : p.requested.keys = queued.map Request.name := by
    rw [h.requested, Entries.keys, List.map_map]
    rfl
  exact hkeys ▸ h.distinct

theorem Ledger.types_nodup (h : Ledger queued built p) : (built.map (·.2.name)).Nodup := by
  have hnames : built.map (·.2.name) = (built.map Prod.fst).map Request.name := by
    rw [List.map_map]
    exact List.map_congr_left h.names
  have hnodup := h.names_nodup
  rw [h.waiting, List.map_append] at hnodup
  exact hnames ▸ (List.nodup_append.1 hnodup).1

theorem Ledger.enters (h : Ledger queued built p) (henters : p.Enters p') :
    Ledger (queued ++ p.newSince p') built p' := by
  refine ⟨?_, ?_, henters.distinct h.distinct, h.names⟩
  · rw [henters.pending, ← List.append_assoc, ← h.waiting]
  · rw [henters.requested, h.requested, List.map_append]

theorem Ledger.addType (h : Ledger queued built p) (type : CatalogType) :
    Ledger queued built (p.addType type) :=
  ⟨h.waiting, h.requested, h.distinct, h.names⟩

theorem Ledger.next {r : Request} {rest : List Request} {type : CatalogType}
    (h : Ledger queued built p) (hpending : p.pending = r :: rest) (hname : type.name = r.name) :
    Ledger queued (built ++ [(r, type)]) { p with pending := rest } := by
  refine ⟨?_, h.requested, h.distinct, fun e he => ?_⟩
  · rw [h.waiting, hpending, List.map_append, List.append_assoc]
    rfl
  · rcases List.mem_append.1 he with he | he
    · exact h.names e he
    · rw [List.mem_singleton.1 he]
      exact hname

theorem Life.ledger (h : Life b queued built p) : Ledger queued built p := by
  induction h with
  | start => exact ⟨rfl, rfl, List.nodup_nil, nofun⟩
  | task _ hrun ih => exact ih.enters (Task.enters hrun)
  | build _ hpending hrun ih =>
    obtain ⟨hqueues, hname⟩ := run_buildType hrun
    exact ((ih.next hpending hname).enters hqueues.enters).addType _

theorem Life.ends {more : List (Request × CatalogType)} {result : Outcome Progress}
    (h : Life b queued built p) (hends : Ends b p more result) :
    ∃ new p', Life b (queued ++ new) (built ++ more) p' ∧
      ((result = .ok p' ∧ p'.pending = []) ∨ ∃ r rest e, p'.pending = r :: rest ∧
        (b.buildType r).run { p' with pending := rest } = .error e ∧ result = .error e) := by
  induction hends generalizing queued built with
  | @done p hnone =>
    exact ⟨[], p, by simpa using h, .inl ⟨rfl, hnone⟩⟩
  | @fails p r rest e hpending hrun =>
    exact ⟨[], p, by simpa using h, .inr ⟨r, rest, e, hpending, hrun, rfl⟩⟩
  | next hpending hrun _ ih =>
    obtain ⟨new, p', hlife, hresult⟩ := ih (h.build hpending hrun)
    rw [List.append_assoc, List.append_assoc] at hlife
    exact ⟨_, p', hlife, hresult⟩

theorem run_eq_of_map {x : Outcome (Unit × Progress)} {result : Outcome Progress}
    (h : x.map Prod.snd = result) : x = result.map fun p => ((), p) := by
  cases x with
  | error e =>
    cases h
    rfl
  | ok out =>
    cases h
    rfl

/-- At every moment of the life of a builder, building all that waits ends after finitely many
types: with nothing left to build, or with the error of a type that cannot be built. No name is
queued twice, and no two types are built for requests of one name, before or on the way. Types that
operations add are not built for requests. -/
theorem Life.drain_ends (h : Life b queued built p) :
    (queued.map Request.name).Nodup ∧ (built.map (·.2.name)).Nodup ∧
    ∃ more new p', Ends b p more ((b.drain.run p).map Prod.snd) ∧
      Life b (queued ++ new) (built ++ more) p' ∧
      ((queued ++ new).map Request.name).Nodup ∧ ((built ++ more).map (·.2.name)).Nodup ∧
      ((b.drain.run p = .ok ((), p') ∧ p'.pending = []) ∨
        ∃ r rest e, p'.pending = r :: rest ∧
          (b.buildType r).run { p' with pending := rest } = .error e ∧
          b.drain.run p = .error e) := by
  obtain ⟨more, hends⟩ := exists_ends b p
  obtain ⟨new, p', hlife, hresult⟩ := h.ends hends
  refine ⟨h.ledger.names_nodup, h.ledger.types_nodup, more, new, p', hends, hlife,
    hlife.ledger.names_nodup, hlife.ledger.types_nodup, ?_⟩
  rcases hresult with ⟨hok, hnone⟩ | ⟨r, rest, e, hpending, hrun, herror⟩
  · exact .inl ⟨run_eq_of_map hok, hnone⟩
  · exact .inr ⟨r, rest, e, hpending, hrun, run_eq_of_map herror⟩

def branchingNode : Schema where
  keywords := { title := some "Node" }
  properties := some [
    ("next", .ofReference "#"),
    ("labels", { keywords := { type := some (.single "array") }
                 items := some (.single {
                   properties := some [("text", .ofType "string")] }) }),
    ("children", { additionalProperties := some (.schema (.ofReference "#")) })]

def branchingBuilder : Builder := .new ⟨({} : Registry).registerRoot branchingNode, {}⟩

def branchingRequest : Request where
  name := branchingBuilder.rootName
  stub := "Node"
  path := "#"
  schema := branchingNode

def branchingStart : Progress where
  pending := [branchingRequest]
  requested := [branchingRequest.entry]

theorem drain_ends_branchingNode :
    (branchingBuilder.drain.run branchingStart).toOption.map (fun out =>
      out.2.catalog.types.map (·.name)) = some ["Node", "LabelsItem"] ∧
    ∃ more new p', Ends branchingBuilder branchingStart more
        ((branchingBuilder.drain.run branchingStart).map Prod.snd) ∧
      Life branchingBuilder ([branchingRequest] ++ new) more p' := by
  have hrun : (Task.run branchingBuilder (.root branchingNode)).run {} = .ok ((), branchingStart) :=
    rfl
  have hstart : Life branchingBuilder [branchingRequest] [] branchingStart := .task .start hrun
  obtain ⟨_, _, more, new, p', hends, hlife, _⟩ := hstart.drain_ends
  exact ⟨by decide +kernel, more, new, p', hends, hlife⟩

end Builder

end SchemaCatalog
