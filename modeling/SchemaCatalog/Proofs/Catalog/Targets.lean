import SchemaCatalog.Proofs.Catalog.Rejections
import SchemaCatalog.Proofs.Documents

namespace SchemaCatalog

theorem Keywords.type_of_same {a b : Keywords} (h : a.same b = true) : a.type = b.type := by
  simp only [same, Bool.and_eq_true, beq_iff_eq] at h
  casesm* _ ∧ _
  assumption

theorem Schema.keywords_same {s t : Schema} (h : s.same t = true) :
    s.keywords.same t.keywords = true := by
  cases s
  unfold same at h
  simp only [Bool.and_eq_true] at h
  exact h.1.1.1.1.1.1.1.1.1

theorem Schema.type_of_same {s t : Schema} (h : s = t ∨ (s == t) = true) :
    s.keywords.type = t.keywords.type := by
  rcases h with heq | hsame
  · rw [heq]
  · exact Keywords.type_of_same (keywords_same hsame)

/-- The name stands for the schema, or for one that is equal, or else a collision under the name is
on record. -/
def Progress.StandsFor (p : Progress) (name : String) (s : Schema) : Prop :=
  ∃ known, p.requested.lookup name = some known ∧
    (known = s ∨ (known == s) = true ∨ ∃ d ∈ p.diagnostics, d.Collides name)

theorem Progress.StandsFor.queues {p p' : Progress} {name : String} {s : Schema}
    (h : p.StandsFor name s) (hqueues : p.Queues p') : p'.StandsFor name s := by
  obtain ⟨known, hknown, h⟩ := h
  refine ⟨known, hqueues.lookup hknown, h.imp_right (Or.imp_right fun hcollides => ?_)⟩
  obtain ⟨d, hd, hname⟩ := hcollides
  exact ⟨d, hqueues.diagnostics.subset hd, hname⟩

namespace Builder

variable {b : Builder} {p p' : Progress}

theorem ensures_request_standsFor {r : Request} (h : p.catalog.hasType r.name = false) :
    Ensures (request r) p (fun _ p' => p'.StandsFor r.name r.schema) fun _ => True := by
  refine (ensures_request r p).mono (fun _ p' hp' => ?_) fun _ _ => trivial
  cases hp'.2 with
  | known hknown hsame => exact ⟨_, hknown, .inr (.inl hsame)⟩
  | @collides d hanswers hcollides =>
    have hrequested : p.requested.has r.name = true :=
      hanswers.resolve_left fun htype => Bool.false_ne_true (h.symm.trans htype)
    obtain ⟨known, hknown⟩ := Option.isSome_iff_exists.1 hrequested
    have hrecorded : d ∈ p.diagnostics ++ [d] :=
      List.mem_append_right _ (List.mem_singleton_self d)
    exact ⟨known, hknown, .inr (.inr ⟨d, hrecorded, hcollides⟩)⟩
  | enters hnone => exact ⟨r.schema, Progress.lookup_enter hnone, .inl rfl⟩

theorem ensures_requestDefinitions_standsFor (hempty : p.catalog = {})
    (definitions : List (String × Schema)) :
    Ensures (b.requestDefinitions definitions) p (fun _ p' =>
      ∀ key s, (key, s) ∈ definitions → p'.StandsFor (b.typeName key) s) fun _ => True := by
  induction definitions generalizing p with
  | nil => exact ensures_pure nofun
  | cons entry rest ih =>
    obtain ⟨key, s⟩ := entry
    have hfree : p.catalog.hasType (b.typeName key) = false := by rw [hempty]; rfl
    have hplain : (Request.mk (b.typeName key) key s!"#/definitions/{key}" s false).Apt :=
      Request.apt_of_plain rfl
    apply ensures_bind ((ensures_request_standsFor hfree).and (queues_request hplain p)).well
    intro _ p₁ hp₁
    obtain ⟨hstands, hqueues⟩ := hp₁
    have hrest := (ih (hqueues.catalog.trans hempty)).and (onlyQueues_requestDefinitions rest p₁)
    refine hrest.mono (fun _ p' hp' => ?_) fun _ _ => trivial
    obtain ⟨hlater, hqueues'⟩ := hp'
    intro key' s' hmem
    rcases List.mem_cons.1 hmem with heq | hmem
    · cases heq
      exact hstands.queues hqueues'
    · exact hlater key' s' hmem

/-- The schema that a reference stands for: its target, in normal form. -/
def target (b : Builder) (reference : String) : Outcome Schema := do
  b.normalForm (← b.scope.registry.expand reference)

theorem target_local {r : String} {s t : Schema} (hlocal : (Reference.parse r).document = "")
    (hs : b.scope.registry.resolve r = .ok s) (ht : s.normalize b.scope = .ok t) :
    b.target r = .ok t := by
  rw [target, Registry.expand_local hlocal hs]
  exact ht

def targetRequest (b : Builder) (reference path : String) (target : Schema) : Request where
  name := b.nameOf reference
  stub := (Reference.parse reference).name
  path := path
  schema := target

theorem requested_targetRequest (reference path : String) (t : Schema) :
    (p.enter (b.targetRequest reference path t)).requested =
      p.requested ++ [(b.nameOf reference, t)] := by
  simp only [Progress.enter, targetRequest]

theorem ensures_request_follows {r : Request} {name : String} (hname : r.name = name)
    (h : ¬ p.Answers name) : Ensures (request r) { p with followed := p.followed + 1 }
      (fun _ p' => p' = ({ p with followed := p.followed + 1 } : Progress).enter r)
      fun _ => False := by
  have hfresh : ¬ ({ p with followed := p.followed + 1 } : Progress).Answers r.name := hname ▸ h
  exact (ensures_request_fresh hfresh).mono (fun _ _ hp' => hp'.2) fun _ he => he

/-- A field made from a reference has the name of the reference for its type. If the name is free,
the target is requested under it; if it is taken, nothing more is done. Only a reference without a
target can fail. -/
theorem ensures_referenceSpec_target (r path : String) (p : Progress) :
    Ensures (b.referenceSpec r path) p (fun spec p' =>
      spec = .one (.named (b.nameOf r)) ∧ (p.Answers (b.nameOf r) → p' = p) ∧
        (¬ p.Answers (b.nameOf r) → ∃ t, b.target r = .ok t ∧
          p' = ({ p with followed := p.followed + 1 } : Progress).enter
            (b.targetRequest r path t))) fun _ =>
      ¬ p.Answers (b.nameOf r) ∧ ∀ t, b.target r ≠ .ok t := by
  unfold referenceSpec
  apply ensures_get_bind
  split
  · rename_i hfree
    have hnone : ¬ p.Answers (b.nameOf r) := by
      simpa [Progress.Answers, nameOf] using hfree
    refine ensures_lift_bind (fun s hs => ?_) fun e he => ⟨hnone, fun t ht => ?_⟩
    · have hcopy := Outcome.at_eq_ok hs
      refine ensures_lift_bind (fun t ht => ?_) fun e he => ⟨hnone, fun t ht => ?_⟩
      · have htarget : b.target r = .ok t := by
          rw [target, hcopy]
          exact Outcome.at_eq_ok ht
        apply ensures_modify_bind
        refine ensures_bind ((ensures_request_follows ?_ hnone).mono (fun _ _ h => h)
          fun _ he => he.elim) fun _ p' hp' => ?_
        · simp only [nameOf]
        · refine ensures_pure ⟨rfl, fun h => absurd h hnone, fun _ => ⟨t, htarget, ?_⟩⟩
          rw [hp', targetRequest]
          simp only [nameOf]
      · rw [target, hcopy] at ht
        cases he.symm.trans (Outcome.at_of_ok ht path)
    · obtain ⟨s, hs, _⟩ := bind_eq_ok ht
      cases he.symm.trans (Outcome.at_of_ok hs path)
  · rename_i htaken
    have hanswers : p.Answers (b.nameOf r) := by
      simpa [Progress.Answers, nameOf, Classical.or_iff_not_imp_left] using htaken
    exact ensures_pure ⟨rfl, fun _ => rfl, fun h => absurd hanswers h⟩

theorem run_referenceSpec_of_answers {r : String} (path : String)
    (h : p.Answers (b.nameOf r)) :
    (b.referenceSpec r path).run p = .ok (.one (.named (b.nameOf r)), p) := by
  rcases (ensures_referenceSpec_target r path p).cases with
    ⟨spec, p', hrun, hspec, htaken, _⟩ | ⟨_, _, hnone, _⟩
  · have hrun' : (b.referenceSpec r path).run p = .ok (spec, p') := hrun
    rw [hrun', hspec, htaken h]
  · exact absurd h hnone

/-- The name of a reference to a definition is that of its key, unless the key is empty. -/
theorem nameOf_definition {r key : String}
    (hkey : Reference.definitionKey? (Reference.parse r).segments = some key) (hne : key ≠ "") :
    b.nameOf r = b.typeName key := by
  have hname : (Reference.parse r).name = key := by
    have hlast : ∃ last, (Reference.parse r).segments.getLast? = some last ∧
        Reference.unescape last = key := by
      unfold Reference.definitionKey? at hkey
      split at hkey <;> first
        | exact ⟨_, by simp only [*]; rfl, Option.some.inj hkey⟩
        | cases hkey
    obtain ⟨last, hlast, hunescape⟩ := hlast
    rw [Reference.name, hlast]
    dsimp only
    rw [if_neg, hunescape]
    intro hempty
    rw [String.isEmpty_iff.1 hempty] at hunescape
    exact hne hunescape.symm
  rw [nameOf, hname, referenceName, if_neg]
  exact fun hempty => hne (String.isEmpty_iff.1 hempty)

theorem nameOf_root {r : String} (hlocal : (Reference.parse r).document = "")
    (hpointer : (Reference.parse r).pointer = "" ∨ (Reference.parse r).pointer = "/") :
    b.nameOf r = b.rootName := by
  have hname : (Reference.parse r).name = "" := by
    cases hr : Reference.parse r with
    | mk path pointer =>
      rw [hr] at hlocal hpointer
      cases hlocal
      rcases hpointer with h | h <;> cases h <;> decide
  rw [nameOf, hname]
  rfl

end Builder

namespace Setup

open Builder

/-- After the first requests the names of definitions stand for them, and so does that of the root,
if it has a type. -/
theorem ensures_requestTypes_standsFor (b : Builder) (dialect : Dialect) (root : Schema) :
    Ensures (requestTypes b dialect root) {} (fun _ p' =>
      (∀ key s, (key, s) ∈ root.definitions.getD [] → p'.StandsFor (b.typeName key) s) ∧
        ((dialect == .jsonSchema && describesValue root) = true →
          p'.requested.lookup b.rootName = some root)) fun _ => True := by
  unfold requestTypes
  dsimp only
  split
  · have hfresh : ¬ ({} : Progress).Answers b.rootName := by
      rintro (h | h) <;> exact Bool.false_ne_true h
    apply ensures_bind (ensures_request_fresh hfresh).well
    rintro _ p ⟨_, hp⟩
    have hempty : p.catalog = {} := by
      rw [hp]
      rfl
    have hname : p.requested.lookup b.rootName = some root := by
      rw [hp]
      exact (Entries.lookup_cons _ _ _ _).trans (if_pos rfl)
    have hrest := (ensures_requestDefinitions_standsFor (b := b) hempty
      (root.definitions.getD [])).and (onlyQueues_requestDefinitions _ p)
    refine hrest.mono (fun _ p' hp' => ?_) fun _ _ => trivial
    exact ⟨hp'.1, fun _ => hp'.2.lookup hname⟩
  · rename_i hroot
    refine (ensures_requestDefinitions_standsFor rfl _).mono (fun _ p' hp' => ?_) fun _ he => he
    exact ⟨hp', fun h => absurd h hroot⟩

end Setup

namespace Setup.Course

open Builder

variable {setup : Setup} {document : Json} {c : Compilation} (course : setup.Course document c)

theorem exists_root : ∃ root, course.scope.registry.root? = some root ∧
    root.normalize course.scope = .ok course.normal := by
  have hnormal := course.normal_eq
  unfold normalize at hnormal
  obtain ⟨scope, hscope, hnormal⟩ := bind_eq_ok hnormal
  cases hscope.symm.trans course.scope_eq
  obtain ⟨root, hroot, hnormal⟩ := bind_eq_ok hnormal
  obtain ⟨registry, hregistry, heq⟩ := bind_eq_ok hscope
  have hregistered := root?_registry hregistry hroot
  refine ⟨root, ?_, hnormal⟩
  rw [← Except.ok.inj heq]
  exact hregistered

abbrev builder : Builder := .new course.scope

/-- A type of the catalog was built under the name, from the schema. -/
def Gives (name : String) (s : Schema) : Prop :=
  ∃ e ∈ course.built ++ course.rest, e.1.schema = s ∧ e.2.name = name ∧ e.2 ∈ c.catalog.types

theorem types_built {e : Request × CatalogType} (h : e ∈ course.built) :
    e.2 ∈ c.catalog.types := by
  rw [course.types, offered, List.append_assoc, Catalog.offerAll_append]
  refine Catalog.types_prefix_offerAll.subset ?_
  have hoffered : e.2 ∈ course.built.map Prod.snd := List.mem_map_of_mem h
  refine (Catalog.mem_offerAll_or_rejected hoffered).resolve_right fun hrejected => ?_
  rw [course.rejected_built] at hrejected
  cases hrejected

theorem gives_of_asked {name : String} {s : Schema}
    (h : course.asked.requested.lookup name = some s) : course.Gives name s := by
  have hentry := mem_of_lookup (course.drains.settled.lookup name s h)
  rw [course.requested_drained] at hentry
  obtain ⟨e, he, heq⟩ := List.mem_map.1 hentry
  cases heq
  exact ⟨e, List.mem_append_left _ he, rfl, course.drains.settled.names e he,
    course.types_built he⟩

theorem gives_of_requested {name : String} {s : Schema}
    (h : course.progress.requested.lookup name = some s)
    (hname : name ∉ c.catalog.methods.flatMap Method.typeNames) : course.Gives name s := by
  have hentry := mem_of_lookup h
  rw [course.requested] at hentry
  obtain ⟨e, he, heq⟩ := List.mem_map.1 hentry
  cases heq
  have hbuilt := course.name_built he
  have hoffered : e.2 ∈ course.offered := by
    rw [offered, List.append_assoc]
    rcases List.mem_append.1 he with he | he
    · exact List.mem_append_left _ (List.mem_map_of_mem he)
    · exact List.mem_append_right _ (List.mem_append_right _ (List.mem_map_of_mem he))
  refine ⟨e, he, rfl, hbuilt, ?_⟩
  refine (course.mem_types_or_rejected hoffered).resolve_right fun hrejected => ?_
  exact hname (hbuilt ▸ course.name_of_rejected hrejected)

/-- The type that the reference names was built from its target or an equal schema, or else a
collision under the name was recorded. -/
def Agrees (r : String) : Prop :=
  ∃ t, course.builder.target r = .ok t ∧
    ((∃ s, course.Gives (course.builder.nameOf r) s ∧ (s = t ∨ (s == t) = true)) ∨
      ∃ d ∈ c.diagnostics, d.Collides (course.builder.nameOf r))

theorem agrees_definition {r key : String} {s : Schema}
    (hlocal : (Reference.parse r).document = "")
    (hkey : Reference.definitionKey? (Reference.parse r).segments = some key) (hne : key ≠ "")
    (hs : course.scope.registry.resolve r = .ok s) : course.Agrees r := by
  obtain ⟨root, hroot, hnormal⟩ := course.exists_root
  have hentry := (Registry.resolve_local hlocal hroot).1 hs
  rw [Registry.pointee?_definition hkey] at hentry
  obtain ⟨t, ht, hunder⟩ := Schema.entry_normalize hnormal hentry
  have hrequests := (ensures_requestTypes_standsFor _ _ _).of_ok course.asks
  obtain ⟨known, hknown, hstands⟩ := hrequests.1 key t (mem_of_lookup hunder)
  refine ⟨t, target_local hlocal hs ht, ?_⟩
  rw [nameOf_definition hkey hne]
  rcases hstands with hsame | hequal | ⟨d, hd, hcollides⟩
  · exact .inl ⟨known, course.gives_of_asked hknown, .inl hsame⟩
  · exact .inl ⟨known, course.gives_of_asked hknown, .inr hequal⟩
  · exact .inr ⟨d, course.diagnostics.subset hd, hcollides⟩

theorem agrees_root {r : String} (hlocal : (Reference.parse r).document = "")
    (hpointer : (Reference.parse r).pointer = "" ∨ (Reference.parse r).pointer = "/")
    (hrequests : (Dialect.detect document == .jsonSchema && describesValue course.normal) = true) :
    course.Agrees r := by
  obtain ⟨root, hroot, hnormal⟩ := course.exists_root
  have hs : course.scope.registry.resolve r = .ok root := by
    rw [Registry.resolve_local hlocal hroot, Reference.segments]
    rcases hpointer with hpointer | hpointer <;> rw [hpointer] <;> rfl
  have hname : course.builder.nameOf r = course.builder.rootName :=
    nameOf_root hlocal hpointer
  have hasked := ((ensures_requestTypes_standsFor _ _ _).of_ok course.asks).2 hrequests
  refine ⟨course.normal, target_local hlocal hs hnormal, .inl ⟨course.normal, ?_, .inl rfl⟩⟩
  rw [hname]
  exact course.gives_of_asked hasked

theorem agrees_first {r path : String} {p p' : Progress} {spec : FieldSpec}
    (h : (course.builder.referenceSpec r path).run p = .ok (spec, p'))
    (hkept : p'.requested <+: course.progress.requested)
    (hnone : ¬ p.Answers (course.builder.nameOf r))
    (hname : course.builder.nameOf r ∉ c.catalog.methods.flatMap Method.typeNames) :
    course.Agrees r := by
  obtain ⟨_, _, hfirst⟩ := (ensures_referenceSpec_target r path p).of_ok h
  obtain ⟨t, ht, hp'⟩ := hfirst hnone
  have hrequested : p'.requested = p.requested ++ [(course.builder.nameOf r, t)] := by
    rw [hp', requested_targetRequest]
  obtain ⟨more, hmore⟩ := hkept
  have hfree := Progress.lookup_of_not_answers hnone
  have hlookup : course.progress.requested.lookup (course.builder.nameOf r) =
      some t := by
    rw [← hmore, hrequested, List.lookup_append, List.lookup_append, hfree, Entries.lookup_cons,
      if_pos rfl]
    rfl
  exact ⟨t, ht, .inl ⟨t, course.gives_of_requested hlookup hname, .inl rfl⟩⟩

theorem gives_unique {name : String} {s s' : Schema} (h : course.Gives name s)
    (h' : course.Gives name s') : s = s' := by
  obtain ⟨e, he, hs, hname, _⟩ := h
  obtain ⟨e', he', hs', hname', _⟩ := h'
  have hentry {e : Request × CatalogType} (he : e ∈ course.built ++ course.rest) :
      (e.2.name, e.1.schema) ∈ course.progress.requested := by
    rw [course.requested, course.name_built he]
    exact List.mem_map.2 ⟨e, he, rfl⟩
  have hboth := hentry he
  have hboth' := hentry he'
  rw [hname, hs] at hboth
  rw [hname', hs'] at hboth'
  exact congrArg Prod.snd (List.inj_on_of_nodup_map course.distinct hboth hboth' rfl)

/-- References of one name that agree with its type have equal targets, up to the schema between
them, or else a collision was recorded. -/
theorem agrees_share {r r' : String} (h : course.Agrees r) (h' : course.Agrees r')
    (hname : course.builder.nameOf r = course.builder.nameOf r') :
    (∃ t t' s, course.builder.target r = .ok t ∧
      course.builder.target r' = .ok t' ∧ (s = t ∨ (s == t) = true) ∧
        (s = t' ∨ (s == t') = true)) ∨
      ∃ d ∈ c.diagnostics, d.Collides (course.builder.nameOf r) := by
  obtain ⟨t, ht, hagrees⟩ := h
  obtain ⟨t', ht', hagrees'⟩ := h'
  rw [← hname] at hagrees'
  rcases hagrees with ⟨s, hs, hsame⟩ | hcollides
  · rcases hagrees' with ⟨s', hs', hsame'⟩ | hcollides
    · have heq : s' = s := course.gives_unique hs' hs
      rw [heq] at hsame'
      exact .inl ⟨t, t', s, ht, ht', hsame, hsame'⟩
    · exact .inr hcollides
  · exact .inr hcollides

/-- Why a reference that is met at `p` agrees with the type that it names: it leads to a definition
of the document, or to its root, which have their types requested at the start; or else it is the
first to ask for its name, and no operation has a type of that name. -/
inductive Secured (p : Progress) (r : String) : Prop
  | definition {key : String} {s : Schema} : (Reference.parse r).document = "" →
    Reference.definitionKey? (Reference.parse r).segments = some key → key ≠ "" →
    course.scope.registry.resolve r = .ok s → Secured p r
  | root : (Reference.parse r).document = "" →
    ((Reference.parse r).pointer = "" ∨ (Reference.parse r).pointer = "/") →
    (Dialect.detect document == .jsonSchema && describesValue course.normal) = true → Secured p r
  | first : ¬ p.Answers (course.builder.nameOf r) →
    course.builder.nameOf r ∉ c.catalog.methods.flatMap Method.typeNames → Secured p r

end Setup.Course

namespace Setup

open Builder

/-- Every field that is made from a reference is made by `referenceSpec`, and gets the type that the
reference names. At any state whose requests the compilation keeps, as it keeps all that it enters:
that type was built from the target of the reference or an equal schema, or a collision was
recorded, if the reference is secured; so such references with different targets do not share a type
silently. For a reference whose name is taken nothing is compared. -/
theorem compile_reference {setup : Setup} {document : Json} {c : Compilation}
    (h : setup.compile document = .ok c) :
    Nonempty (setup.Course document c) ∧ ∀ course : setup.Course document c,
      (∀ r path p spec p',
        (course.builder.referenceSpec r path).run p = .ok (spec, p') →
        p'.requested <+: course.progress.requested →
          spec = .one (.named (course.builder.nameOf r)) ∧
          (course.Secured p r → course.Agrees r) ∧
          (p.Answers (course.builder.nameOf r) → p' = p)) ∧
      ∀ r r', course.Agrees r → course.Agrees r' →
        course.builder.nameOf r = course.builder.nameOf r' →
          (∃ t t' s, course.builder.target r = .ok t ∧
            course.builder.target r' = .ok t' ∧ (s = t ∨ (s == t) = true) ∧
              (s = t' ∨ (s == t') = true)) ∨
            ∃ d ∈ c.diagnostics, d.Collides (course.builder.nameOf r) := by
  refine ⟨compile_course h, fun course => ⟨fun r path p spec p' hrun hkept => ?_,
    fun r r' => course.agrees_share⟩⟩
  obtain ⟨hspec, htaken, _⟩ := (ensures_referenceSpec_target r path p).of_ok hrun
  refine ⟨hspec, fun hsecured => ?_, htaken⟩
  cases hsecured with
  | definition hlocal hkey hne hs => exact course.agrees_definition hlocal hkey hne hs
  | root hlocal hpointer hrequests => exact course.agrees_root hlocal hpointer hrequests
  | first hnone hname => exact course.agrees_first hrun hkept hnone hname

def splitPets : Json :=
  .object [("definitions", .object [
    ("Pet", .object [("type", .string "string")]),
    ("Owner", .object [("type", .string "object"), ("properties", .object [
      ("pet", .object [("$ref", .string "pets.json#/definitions/Pet")])])])])]

def besidePets : Setup where
  documents := [("pets.json", { definitions := some [("Pet",
    { keywords := { type := some (.single "object") }
      properties := some [("name", .ofType "string")] })] })]

theorem compile_splitPets : ∃ c, compile besidePets splitPets = .ok c ∧ c.diagnostics = [] ∧
    c.catalog.hasType "Pet" = true ∧
    ∃ type ∈ c.catalog.types, type.name = "Owner" ∧
      ∃ f ∈ type.fields, f.name = "pet" ∧ f.type = .named "Pet" := by
  have hresult : (compile besidePets splitPets).toOption.map (fun c =>
      (c.diagnostics, c.catalog.hasType "Pet", decide (∃ type ∈ c.catalog.types,
        type.name = "Owner" ∧ ∃ f ∈ type.fields, f.name = "pet" ∧ f.type = .named "Pet"))) =
      some ([], true, true) := by
    decide +kernel
  obtain ⟨c, hc, heq⟩ := Option.map_eq_some_iff.1 hresult
  obtain ⟨hdiagnostics, hfields⟩ := Prod.mk.inj heq
  obtain ⟨htype, hfield⟩ := Prod.mk.inj hfields
  exact ⟨c, eq_ok_of_toOption hc, hdiagnostics, htype, of_decide_eq_true hfield⟩

/-- The two references have one name, but the types of their targets differ. -/
theorem targets_splitPets {scope : Scope}
    (h : besidePets.scope splitPets (Dialect.detect splitPets) = .ok scope) :
    ((Builder.new scope).nameOf "#/definitions/Pet" = "Pet" ∧
      (Builder.new scope).nameOf "pets.json#/definitions/Pet" = "Pet") ∧
    ((Builder.new scope).target "#/definitions/Pet").toOption.map (·.keywords.type) =
      some (some (.single "string")) ∧
    ((Builder.new scope).target "pets.json#/definitions/Pet").toOption.map (·.keywords.type) =
      some (some (.single "object")) ∧
    (scope.registry.resolve "#/definitions/Pet").toOption.isSome = true := by
  have hresult : (besidePets.scope splitPets (Dialect.detect splitPets)).toOption.map
      (fun scope => (((Builder.new scope).nameOf "#/definitions/Pet",
          (Builder.new scope).nameOf "pets.json#/definitions/Pet"),
        ((Builder.new scope).target "#/definitions/Pet").toOption.map (·.keywords.type),
        ((Builder.new scope).target "pets.json#/definitions/Pet").toOption.map (·.keywords.type),
        (scope.registry.resolve "#/definitions/Pet").toOption.isSome)) =
      some (("Pet", "Pet"), some (some (.single "string")), some (some (.single "object")),
        true) := by
    decide +kernel
  rw [h] at hresult
  have hparts := Option.some.inj hresult
  simpa only [Prod.mk.injEq] using hparts

theorem definitionKey_pet :
    Reference.definitionKey? (Reference.parse "#/definitions/Pet").segments = some "Pet" := by
  decide

theorem Course.agrees_pet {c : Compilation} (course : Course besidePets splitPets c) :
    course.Agrees "#/definitions/Pet" := by
  obtain ⟨_, _, _, hresolves⟩ := targets_splitPets course.scope_eq
  obtain ⟨s, hs⟩ := Option.isSome_iff_exists.1 hresolves
  exact course.agrees_definition (by decide) definitionKey_pet (by decide) (eq_ok_of_toOption hs)

theorem compile_reference_splitPets :
    ∃ c, compile besidePets splitPets = .ok c ∧ ∃ course : Course besidePets splitPets c,
      course.Secured course.progress "#/definitions/Pet" ∧ course.Agrees "#/definitions/Pet" := by
  obtain ⟨c, hc, _, hpet, _⟩ := compile_splitPets
  obtain ⟨⟨course⟩, hcourse⟩ := compile_reference hc
  obtain ⟨⟨hname, _⟩, _, _, hresolves⟩ := targets_splitPets course.scope_eq
  obtain ⟨s, hs⟩ := Option.isSome_iff_exists.1 hresolves
  have hsecured : course.Secured course.progress "#/definitions/Pet" :=
    .definition (by decide) definitionKey_pet (by decide) (eq_ok_of_toOption hs)
  have hanswers : course.progress.Answers
      (course.builder.nameOf "#/definitions/Pet") := by
    rw [hname]
    exact .inl (course.catalog_eq ▸ hpet)
  have hrun := run_referenceSpec_of_answers "Owner/properties/pet" hanswers
  exact ⟨c, hc, course, hsecured,
    ((hcourse course).1 _ _ _ _ _ hrun List.prefix_rfl).2.1 hsecured⟩

/-- A field can have a type that was not built from the target of the reference that it was made
from, without a remark. -/
theorem exists_reference_disagrees : ∃ c, compile besidePets splitPets = .ok c ∧
    (∃ type ∈ c.catalog.types, type.name = "Owner" ∧
      ∃ f ∈ type.fields, f.name = "pet" ∧ f.type = .named "Pet") ∧
    ∃ course : Course besidePets splitPets c,
      course.builder.nameOf "pets.json#/definitions/Pet" = "Pet" ∧
        ¬ course.Agrees "pets.json#/definitions/Pet" := by
  obtain ⟨c, hc, hdiagnostics, _, hfield⟩ := compile_splitPets
  obtain ⟨course⟩ := compile_course hc
  obtain ⟨⟨hname, hname'⟩, hstring, hobject, _⟩ := targets_splitPets course.scope_eq
  refine ⟨c, hc, hfield, course, hname', fun hagrees => ?_⟩
  rcases course.agrees_share course.agrees_pet hagrees (hname.trans hname'.symm) with
    ⟨t, t', s, ht, ht', hsame, hsame'⟩ | ⟨d, hd, _⟩
  · rw [ht] at hstring
    rw [ht'] at hobject
    have hstring' : t.keywords.type = some (.single "string") := Option.some.inj hstring
    have hobject' : t'.keywords.type = some (.single "object") := Option.some.inj hobject
    have htypes := (Schema.type_of_same hsame).symm.trans (Schema.type_of_same hsame')
    rw [hstring', hobject'] at htypes
    exact absurd htypes (by decide)
  · rw [hdiagnostics] at hd
    cases hd

end Setup

end SchemaCatalog
