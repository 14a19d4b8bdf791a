import SchemaCatalog.Proofs.Naming
import SchemaCatalog.Proofs.Catalog.Closed
import SchemaCatalog.Proofs.Catalog.MethodTypes
import SchemaCatalog.Proofs.Catalog.Required

namespace SchemaCatalog

namespace Catalog

/-- What a text can stand for: the primitive with this tag, and the type with this name. -/
inductive Denotes (c : Catalog) : String → TypeRef → Prop
  | primitive (p : Primitive) : c.Denotes p.name (.primitive p)
  | named {name : String} : c.hasType name = true → c.Denotes name (.named name)

/-- No text stands for two things. -/
def Unambiguous (c : Catalog) : Prop :=
  ∀ text target target', c.Denotes text target → c.Denotes text target' → target = target'

variable {c : Catalog} {text : String} {target : TypeRef}

theorem Closed.denotes (h : c.Closed) {type : CatalogType} (htype : type ∈ c.types) {f : Field}
    (hf : f ∈ type.fields) (htarget : target ∈ f.targets) : c.Denotes target.text target := by
  cases target with
  | primitive p => exact .primitive p
  | named name => exact .named (h.fields type htype f hf name htarget)

/-- Texts stand for one thing exactly if no type is called like a primitive. -/
theorem unambiguous_iff : c.Unambiguous ↔ ∀ p : Primitive, c.hasType p.name = false := by
  constructor
  · intro h p
    rw [Bool.eq_false_iff]
    intro htype
    cases h p.name _ _ (.primitive p) (.named htype)
  · intro h text target target' htarget htarget'
    cases htarget with
    | primitive p =>
      generalize hname : p.name = name at htarget'
      cases htarget' with
      | primitive q => rw [Primitive.name_injective hname]
      | named htype =>
        rw [← hname, h p] at htype
        cases htype
    | named htype =>
      cases htarget' with
      | primitive q =>
        rw [h q] at htype
        cases htype
      | named _ => rfl

end Catalog

def Progress.Spelled (b : Builder) (p : Progress) : Prop := ∀ r ∈ p.pending, r.Spelled b

namespace Builder

variable {b : Builder} {p p' : Progress}

def StaySpelled (b : Builder) (p p' : Progress) : Prop := p.Spelled b → p'.Spelled b

theorem staySpelled_request {r : Request} (hr : r.Spelled b) (p : Progress) :
    Ensures (request r) p (fun _ p' => StaySpelled b p p') fun _ => True := by
  refine (ensures_request r p).mono (fun _ p' hp' => ?_) fun _ _ => trivial
  cases hp'.2 with
  | known _ _ => exact id
  | collides _ _ => exact id
  | enters _ =>
    intro hp r' hr'
    rcases List.mem_append.1 hr' with hold | hnew
    · exact hp r' hold
    · exact List.mem_singleton.1 hnew ▸ hr

theorem spelled_referenceName (scope : Scope) (stub : String) :
    ∃ stub', (Builder.new scope).referenceName stub = (Builder.new scope).typeName stub' := by
  unfold referenceName
  split
  · exact ⟨_, rfl⟩
  · exact ⟨stub, rfl⟩

theorem staySpelled_follow (scope : Scope) (reference path : String) (p : Progress) :
    Ensures ((Builder.new scope).referenceSpec reference path) p
      (fun _ p' => StaySpelled (.new scope) p p') fun _ => True := by
  unfold referenceSpec
  dsimp only
  obtain ⟨stub, hstub⟩ := spelled_referenceName scope (Reference.parse reference).name
  generalize (Builder.new scope).referenceName (Reference.parse reference).name = name at hstub ⊢
  apply ensures_get_bind
  split
  · refine ensures_lift_bind (fun target _ => ?_) fun _ _ => trivial
    refine ensures_lift_bind (fun schema _ => ?_) fun _ _ => trivial
    apply ensures_modify_bind
    apply ensures_bind (staySpelled_request ⟨stub, hstub⟩ _)
    exact fun _ p' hp' => ensures_pure hp'
  · exact ensures_pure id

theorem moves_staySpelled (scope : Scope) :
    Moves (.new scope) (fun _ => True) (fun _ => True) fun _ => StaySpelled (.new scope) where
  refl _ := id
  trans h h' := h' ∘ h
  mono _ h := h
  record _ _ := id
  request p _ _ hr := staySpelled_request hr p
  follow path p _ := staySpelled_follow _ _ path p

variable {scope : Scope}

theorem staySpelled_requestTypes (dialect : Dialect) (root : Schema) :
    Keeps (StaySpelled (.new scope)) (Setup.requestTypes (.new scope) dialect root) := by
  have hmoves := moves_staySpelled scope
  unfold Setup.requestTypes
  dsimp only
  split
  · have hroot : Keeps (StaySpelled (.new scope)) ((Builder.new scope).requestRoot root) :=
      staySpelled_request ⟨_, rfl⟩
    exact hmoves.keeps_bind hroot fun _ => hmoves.keeps_requestDefinitions _
  · exact hmoves.keeps_requestDefinitions _

theorem staySpelled_buildType (r : Request) :
    Keeps (StaySpelled (.new scope)) ((Builder.new scope).buildType r) :=
  (moves_staySpelled scope).buildType (inside_true r.schema)

theorem Drains.spelled {built : List (Request × CatalogType)}
    (h : Drains (.new scope) p built p') (hp : p.Spelled (.new scope)) :
    ∀ e ∈ built, e.1.Spelled (.new scope) := by
  induction h with
  | done _ => nofun
  | next hpending hrun _ ih =>
    rw [Progress.Spelled, hpending] at hp
    obtain ⟨hr, hrest⟩ := List.forall_mem_cons.1 hp
    have hbuilt := (staySpelled_buildType _ _).of_ok hrun
    exact List.forall_mem_cons.2 ⟨hr, ih (hbuilt hrest)⟩

theorem Adds.spelled {sites : List (Operation.Site × List Json)} {offered : List CatalogType}
    (h : Adds (.new scope) p sites offered p') (hp : p.Spelled (.new scope)) :
    p'.Spelled (.new scope) := by
  have hmoves := moves_staySpelled scope
  induction h with
  | done => exact hp
  | next _ _ hmethod _ ih =>
    obtain ⟨_, _, _, _, hparameters, hresponses, hp₃, _⟩ := run_method hmethod
    subst hp₃
    have hfirst := (hmoves.keeps_parametersType _ _ _ _).of_ok hparameters
    have hsecond := (hmoves.keeps_responsesType _ _ _).of_ok hresponses
    exact ih (hsecond (hfirst hp))

end Builder

namespace Setup

open Builder

variable {setup : Setup} {document : Json} {c : Compilation}

namespace Course

variable (course : setup.Course document c)

theorem spelled_built {e : Request × CatalogType} (h : e ∈ course.built ++ course.rest) :
    e.1.Spelled course.builder := by
  have hasked : course.asked.Spelled course.builder :=
    (staySpelled_requestTypes _ _ {}).of_ok course.asks nofun
  have hdrained : course.drained.Spelled course.builder := fun r hr => by
    rw [course.drains.settled.pending] at hr
    cases hr
  rcases List.mem_append.1 h with h | h
  · exact course.drains.spelled hasked e h
  · exact course.drainsRest.spelled (course.adds.spelled hdrained) e h

include course in
theorem spelled {type : CatalogType} (h : type ∈ c.catalog.types) :
    ∃ stub, type.name = typeNameUnder setup.options stub := by
  rw [← scope_options course.scope_eq]
  rcases course.run_type h with ⟨e, he, heq, _⟩ | ⟨site, shared, q, q', _, hrun⟩
  · obtain ⟨stub, hstub⟩ := course.spelled_built he
    exact ⟨stub, by rw [← heq, course.name_built he, hstub]; rfl⟩
  · rcases hrun with hparameters | hresponses
    · exact ⟨_, name_parametersType hparameters⟩
    · exact ⟨_, name_responsesType hresponses⟩

end Course

/-- Under a leading text, types of a compiled catalog are called like no other primitives than those
with tags that can follow it. Each text of the catalog stands for one thing exactly if none of these
is the name of a type; and every field refers to one of the things that its text stands for. -/
theorem compile_unambiguous (h : setup.compile document = .ok c) :
    (∀ type ∈ c.catalog.types, ∀ p : Primitive, type.name = p.name →
      p ∈ tagsAfter setup.options.typeLead) ∧
    (c.catalog.Unambiguous ↔
      ∀ type ∈ c.catalog.types, ∀ p ∈ tagsAfter setup.options.typeLead, type.name ≠ p.name) ∧
    ∀ type ∈ c.catalog.types, ∀ f ∈ type.fields, ∀ target ∈ f.targets,
      c.catalog.Denotes target.text target := by
  obtain ⟨course⟩ := compile_course h
  have htags : ∀ type ∈ c.catalog.types, ∀ p : Primitive, type.name = p.name →
      p ∈ tagsAfter setup.options.typeLead := by
    intro type htype p hname
    obtain ⟨stub, hstub⟩ := course.spelled htype
    exact (mem_tagsAfter_iff setup.options.naming).2 ⟨stub, hstub.symm.trans hname⟩
  obtain ⟨b, dialect, root, progress, hbuild, hcatalog⟩ := compile_eq_ok h
  have hclosed : c.catalog.Closed :=
    hcatalog ▸ ((ensures_build b document dialect root).of_ok hbuild).closed
  refine ⟨htags, ?_, fun type htype f hf target htarget => hclosed.denotes htype hf htarget⟩
  rw [Catalog.unambiguous_iff]
  constructor
  · intro hfree type htype p _ hname
    have hthere : c.catalog.hasType p.name = true := Catalog.hasType_iff.2 ⟨type, htype, hname⟩
    rw [hfree p] at hthere
    cases hthere
  · intro hnone p
    rw [Bool.eq_false_iff]
    intro hthere
    obtain ⟨type, htype, hname⟩ := Catalog.hasType_iff.1 hthere
    exact hnone type htype p (htags type htype p hname) hname

/-- A definition that is called like a primitive, and one with a table of such values and a table of
any values. -/
def anyTables : Json :=
  .object [("definitions", .object [
    ("Any", .object [("type", .string "object"), ("properties", .object [
      ("url", .object [("type", .string "string")])])]),
    ("Box", .object [("type", .string "object"), ("properties", .object [
      ("labels", .object [("type", .string "object"),
        ("additionalProperties", .object [("$ref", .string "#/definitions/Any")])]),
      ("extras", .object [("type", .string "object"),
        ("additionalProperties", .bool true)])])])])]

theorem compile_anyTables : ∃ c, compile {} anyTables = .ok c ∧ c.diagnostics = [] ∧
    c.catalog.types.map (fun type => (type.name, type.fields.map (·.targets))) =
      [("Any", [[.primitive .string]]),
        ("Box", [[.named "Any", .named "Any"], [.primitive .any, .primitive .any]])] := by
  have hresult : (compile {} anyTables).toOption.map (fun c => (c.diagnostics,
      c.catalog.types.map fun type => (type.name, type.fields.map (·.targets)))) = some ([],
        [("Any", [[.primitive .string]]),
          ("Box", [[.named "Any", .named "Any"], [.primitive .any, .primitive .any]])]) := by
    decide +kernel
  obtain ⟨c, hc, hout⟩ := Option.map_eq_some_iff.1 hresult
  obtain ⟨hdiagnostics, htypes⟩ := Prod.mk.inj hout
  exact ⟨c, eq_ok_of_toOption hc, hdiagnostics, htypes⟩

theorem compile_unambiguous_anyTables : ∃ c, compile {} anyTables = .ok c ∧
    ¬ c.catalog.Unambiguous ∧ ∀ type ∈ c.catalog.types, type.name ≠ Primitive.string.name := by
  obtain ⟨c, hc, _, htypes⟩ := compile_anyTables
  obtain ⟨htags, hiff, _⟩ := compile_unambiguous hc
  refine ⟨c, hc, ?_, ?_⟩
  · intro hunambiguous
    have hany : "Any" ∈ c.catalog.types.map (·.name) := by
      have hnames := congrArg (List.map Prod.fst) htypes
      rw [List.map_map] at hnames
      exact hnames.symm ▸ List.mem_cons_self
    obtain ⟨type, htype, hname⟩ := List.mem_map.1 hany
    exact hiff.1 hunambiguous type htype .any (by decide) hname
  · intro type htype hname
    exact absurd (htags type htype .string hname) (by decide)

/-- A type can be called like a primitive without a remark, and then two fields that refer to
different things do so by one text. -/
theorem exists_ambiguous_text : ∃ (document : Json) (c : Compilation),
    compile {} document = .ok c ∧ c.diagnostics = [] ∧
      (∃ type ∈ c.catalog.types, type.name = Primitive.any.name) ∧
      ∃ type ∈ c.catalog.types, ∃ f ∈ type.fields, ∃ g ∈ type.fields,
        f.type ≠ g.type ∧ f.type.text = g.type.text := by
  obtain ⟨c, hc, hdiagnostics, htypes⟩ := compile_anyTables
  obtain ⟨any, _, hlist, hany, hboxes⟩ := List.map_eq_cons_iff.1 htypes
  obtain ⟨box, hbox, htargets⟩ := List.map_eq_singleton_iff.1 hboxes
  obtain ⟨labels, _, hfields, hlabels, hextras⟩ :=
    List.map_eq_cons_iff.1 (Prod.mk.inj htargets).2
  obtain ⟨extras, hrest, hextras⟩ := List.map_eq_singleton_iff.1 hextras
  have hlabel : labels.type = .named "Any" := (List.cons.inj hlabels).1
  have hextra : extras.type = .primitive .any := (List.cons.inj hextras).1
  rw [hbox] at hlist
  rw [hrest] at hfields
  refine ⟨anyTables, c, hc, hdiagnostics, ⟨any, ?_, (Prod.mk.inj hany).1⟩, box, ?_, labels, ?_,
    extras, ?_, ?_, ?_⟩
  · rw [hlist]
    exact List.mem_cons_self
  · rw [hlist]
    exact List.mem_cons_of_mem _ List.mem_cons_self
  · rw [hfields]
    exact List.mem_cons_self
  · rw [hfields]
    exact List.mem_cons_of_mem _ List.mem_cons_self
  · rw [hlabel, hextra]
    nofun
  · rw [hlabel, hextra]
    rfl

end Setup

end SchemaCatalog
