import SchemaCatalog.Proofs.Catalog.Omissions

namespace SchemaCatalog

namespace Builder

variable (b : Builder)

def propertyPart (type key : String) : Part := .named s!"{type}/properties/{key}" key

def propertyParts (r : Request) : List Part :=
  (r.schema.properties.getD []).map fun entry => propertyPart r.name entry.1

def memberName (reference : String) : String :=
  if (Reference.parse reference).name.isEmpty then b.rootName else (Reference.parse reference).name

/-- An alternative, for which a field can stand if it is a reference or a boolean. -/
def memberPart (path : String) (member : Schema) : Part where
  path := path
  Fits f := match member.reference with
    | some reference => f.name = b.memberName reference ∧ f.type = .named (b.nameOf reference)
    | none => member.typeName? = some "boolean" ∧ f.name = "boolean" ∧ f.type = .primitive .bool

def memberParts (path keyword : String) : Nat → List Schema → List Part
  | _, [] => []
  | i, member :: rest =>
    b.memberPart s!"{path}/{keyword}/{i}" member :: memberParts path keyword (i + 1) rest

def valuePart (type : String) : Part := .named s!"{type}/value" "value"

theorem accounts_propertyField (type key : String) (schema : Schema) :
    Accounts [propertyPart type key] Option.toList (b.propertyField type key schema) :=
  accounts_fieldFor b key _ key schema _

theorem accounts_collectFields {step : String → Schema → BuildM (Option Field)}
    {part : String → Part}
    (hstep : ∀ key schema, Accounts [part key] Option.toList (step key schema))
    (table : List (String × Schema)) :
    Accounts (table.map fun entry => part entry.1) id (collectFields step table) := by
  induction table with
  | nil => exact accounts_nothing rfl
  | cons entry rest ih =>
    obtain ⟨key, schema⟩ := entry
    exact accounts_seq (hstep key schema) ih _ fun _ _ => rfl

theorem accounts_memberField (path keyword : String) (member : Schema) :
    Accounts [b.memberPart path member] Option.toList (b.memberField path keyword member) := by
  unfold memberField
  split
  · rename_i reference hreference
    intro p
    dsimp only
    have hfollow := (queues_follow b reference path p).and
      (ensures_referenceSpec_target reference path p)
    apply ensures_bind hfollow.well
    intro spec p' hp'
    obtain ⟨hqueues, hspec, _⟩ := hp'
    refine ensures_pure ⟨hqueues, .field ?_ .nil⟩
    rw [hspec]
    simp only [memberPart, hreference, field, FieldSpec.toField, memberName]
    exact ⟨trivial, rfl⟩
  · rename_i hnone
    split
    · rename_i hboolean
      refine fun p => ensures_pure ⟨.refl p, .field ?_ .nil⟩
      simp only [memberPart, hnone]
      exact ⟨eq_of_beq hboolean, rfl, rfl⟩
    · exact accounts_warn_none rfl _ _

theorem accounts_memberFields (path keyword : String) (i : Nat) (members : List Schema) :
    Accounts (b.memberParts path keyword i members) id (b.memberFields path keyword i members) := by
  induction members generalizing i with
  | nil => exact accounts_nothing rfl
  | cons member rest ih =>
    exact accounts_seq (accounts_memberField b _ keyword member) (ih (i + 1)) _ fun _ _ => rfl

/-- The properties of an object are the first of its fields. -/
theorem ensures_buildObject (r : Request) (p : Progress) :
    Ensures (b.buildObject r) p (fun type p' => ∃ fields, fields <+: type.fields ∧
      Accounted (p.remarks p') (propertyParts r) fields) fun _ => True := by
  have hpatterns : OnlyQueues
      (collectFields (b.patternField r.name) (r.schema.patternProperties.getD [])) :=
    (moves_queues b).collectFields fun key s _ =>
      (moves_queues b).patternField (inside_true s) r.name key
  have hadditional : OnlyQueues (b.additionalType r) :=
    (moves_queues b).additionalType (inside_true r.schema)
  unfold buildObject
  dsimp only
  apply ensures_bind (accounts_collectFields (accounts_propertyField b r.name) _ p)
  intro properties p₁ hp₁
  obtain ⟨hqueues, hproperties⟩ := hp₁
  apply ensures_bind (hpatterns p₁)
  intro patternFields p₂ hp₂
  apply ensures_bind (hadditional p₂)
  intro additional p₃ hp₃
  refine ensures_pure ⟨properties, ?_, ?_⟩
  · rw [List.append_assoc]
    exact List.prefix_append _ _
  · exact hproperties.mono (hqueues.remarks_subset (hp₂.trans hp₃)).1

theorem accounts_buildChoice (r : Request) :
    Accounts (b.memberParts r.name "oneOf" 0 (r.schema.oneOf.getD [])) (·.fields)
      (b.buildChoice r) :=
  accounts_map (accounts_memberFields b _ _ 0 _) _ fun _ => rfl

theorem accounts_buildAlias (r : Request) :
    Accounts [valuePart r.name] (·.fields) (b.buildAlias r) := by
  have hfield : Accounts [valuePart r.name] Option.toList (do
      return (← b.fieldFor r.stub s!"{r.name}/value" r.schema).map fun spec =>
        b.field spec "value" none) :=
    accounts_fieldFor b r.stub _ "value" r.schema none
  have hbuild : b.buildAlias r = (do
      let field ← (do
        return (← b.fieldFor r.stub s!"{r.name}/value" r.schema).map fun spec =>
          b.field spec "value" none : BuildM (Option Field))
      return { name := r.name, kind := .scalarAlias, fields := field.toList }) := by
    unfold buildAlias
    simp only [bind_assoc, pure_bind, Option.toList_map]
  rw [hbuild]
  exact accounts_map hfield _ fun _ => rfl

theorem typed_of_typeName {s : Schema} {name : String} (h : s.typeName? = some name) :
    s.keywords.type.isSome = true := by
  obtain ⟨type, htype, _⟩ := Option.bind_eq_some_iff.1 h
  rw [htype]
  rfl

theorem plain_of_apt {r : Request} (hr : r.Apt)
    (h : r.schema.keywords.type.isSome = true ∨ r.schema.oneOf = none) : r.asChoice = false := by
  rw [Bool.eq_false_iff]
  intro hchoice
  obtain ⟨_, hshape⟩ := hr hchoice
  rcases h with hsome | hnone
  · have huntyped := Schema.untyped_of_shape (.inl hshape)
    rw [Option.isNone_iff_eq_none.1 huntyped] at hsome
    cases hsome
  · have halternatives := Schema.oneOf_of_shape hshape
    rw [hnone] at halternatives
    cases halternatives

/-- An object is built where the type says so, or where properties are declared without a type or
alternatives. -/
theorem formOf_object {r : Request} (hr : r.Apt) (hreference : r.schema.reference = none)
    (hproperties : r.schema.properties.isSome = true)
    (hreads : r.schema.typeName? = some "object" ∨
      r.schema.keywords.type = none ∧ r.schema.oneOf = none) : formOf r = .object := by
  have hread : r.schema.keywords.type.isSome = true ∨ r.schema.oneOf = none :=
    hreads.imp typed_of_typeName And.right
  have hplain := plain_of_apt hr hread
  have hobject : r.schema.isObject = true := by
    rcases hreads with htype | ⟨hnone, _⟩
    · rw [Schema.isObject, htype]
      rfl
    · rw [Schema.isObject, Schema.typeName?, hnone]
      simp [hproperties]
  have hother : (r.schema.keywords.type.isNone && r.schema.oneOf.isSome) = false := by
    rcases hread with hsome | hnone
    · rw [← Option.not_isSome, hsome]
      rfl
    · rw [hnone]
      exact Bool.and_false _
  simp [formOf, hplain, hreference, hobject, hother]

theorem formOf_choice {r : Request} (hreference : r.schema.reference = none)
    (hnone : r.schema.keywords.type = none) (hsome : r.schema.oneOf.isSome = true) :
    formOf r = .choice := by
  simp [formOf, hreference, hnone, hsome]

theorem formOf_alias {r : Request} (hr : r.Apt) (hsome : r.schema.keywords.type.isSome = true)
    (hother : r.schema.typeName? ≠ some "object") : formOf r = .alias := by
  have hplain := plain_of_apt hr (.inl hsome)
  have hnotNone : r.schema.keywords.type.isNone = false := by
    rw [← Option.not_isSome, hsome]
    rfl
  have hobject : r.schema.isObject = false := by
    unfold Schema.isObject
    split
    · rename_i name hname
      exact beq_eq_false_iff_ne.2 fun heq => hother (heq ▸ hname)
    · simp [hnotNone]
  have hempty : r.schema.isEmpty = false := by
    rw [Bool.eq_false_iff]
    intro hempty
    rw [Schema.type_of_same (.inr hempty)] at hsome
    cases hsome
  simp only [formOf, hplain, hnotNone, hobject, hempty, Bool.false_and, Bool.or_self,
    Bool.and_false, Bool.false_eq_true, if_false]

end Builder

/-- What a type shows of the schema that was requested, with what is remarked on. -/
structure Request.Shown (r : Request) (b : Builder) (type : CatalogType)
    (remarks : List Diagnostic) : Prop where
  /-- Properties are read if the declared type is that of objects, and without a type unless there
  are alternatives. -/
  properties : (r.schema.typeName? = some "object" ∨
      r.schema.keywords.type = none ∧ r.schema.oneOf = none) →
    ∃ fields, fields <+: type.fields ∧ Accounted remarks (Builder.propertyParts r) fields
  /-- Alternatives are read if no type is declared. -/
  alternatives {members : List Schema} : r.schema.keywords.type = none →
    r.schema.oneOf = some members →
    Accounted remarks (b.memberParts r.name "oneOf" 0 members) type.fields
  /-- A declared type other than that of objects is named. -/
  value : r.schema.keywords.type.isSome = true → r.schema.typeName? ≠ some "object" →
    Accounted remarks [Builder.valuePart r.name] type.fields

namespace Request.Shown

variable {r : Request} {b : Builder} {type : CatalogType} {remarks remarks' : List Diagnostic}

theorem mono (h : r.Shown b type remarks) (hsubset : remarks ⊆ remarks') :
    r.Shown b type remarks' where
  properties hreads := by
    obtain ⟨fields, hfields, haccounted⟩ := h.properties hreads
    exact ⟨fields, hfields, haccounted.mono hsubset⟩
  alternatives hnone hmembers := (h.alternatives hnone hmembers).mono hsubset
  value hsome hother := (h.value hsome hother).mono hsubset

end Request.Shown

namespace Builder

variable {b : Builder} {p p' : Progress}

theorem shown_of_run {r : Request} {type : CatalogType} (hr : r.Apt)
    (hreference : r.schema.reference = none) (h : (b.buildType r).run p = .ok (type, p')) :
    r.Shown b type (p.remarks p') where
  properties hreads := by
    cases htable : r.schema.properties with
    | none =>
      refine ⟨[], List.nil_prefix, ?_⟩
      rw [propertyParts, htable]
      exact .nil
    | some table =>
      have hform := formOf_object hr hreference (by rw [htable]; rfl) hreads
      rw [buildType, hform] at h
      obtain ⟨object, p₁, hobject, h⟩ := run_bind h
      cases h
      have hshown := (ensures_buildObject b r p).of_ok hobject
      exact hshown
  alternatives {members} hnone hmembers := by
    have hform := formOf_choice hreference hnone (by rw [hmembers]; rfl)
    have hchoice := accounts_buildChoice b r p
    rw [hmembers] at hchoice
    rw [buildType, hform] at h
    obtain ⟨choice, p₁, hrun, h⟩ := run_bind h
    cases h
    exact (hchoice.of_ok hrun).2
  value hsome hother := by
    rw [buildType, formOf_alias hr hsome hother] at h
    obtain ⟨name, p₁, hrun, h⟩ := run_bind h
    cases h
    exact ((accounts_buildAlias b r p).of_ok hrun).2

theorem Drains.run_built {built : List (Request × CatalogType)} (h : Drains b p built p')
    {e : Request × CatalogType} (he : e ∈ built) : ∃ p₀ p₁,
      (b.buildType e.1).run p₀ = .ok (e.2, p₁) ∧ p₁.diagnostics <+: p'.diagnostics := by
  induction h with
  | done _ => cases he
  | next _ hrun hdrains ih =>
    rcases List.mem_cons.1 he with heq | he
    · subst heq
      exact ⟨_, _, hrun, hdrains.settled.diagnostics⟩
    · exact ih he

theorem Drains.apt {built : List (Request × CatalogType)} (h : Drains b p built p') (hp : p.Apt)
    {e : Request × CatalogType} (he : e ∈ built) : e.1.Apt := by
  induction h with
  | done _ => cases he
  | next hpending hrun _ ih =>
    rw [Progress.Apt, hpending] at hp
    rcases List.mem_cons.1 he with heq | he
    · rw [heq]
      exact hp _ List.mem_cons_self
    · refine ih ((run_buildType hrun).1.apt fun r hr => ?_) he
      exact hp r (List.mem_cons_of_mem _ hr)

theorem Adds.apt {sites : List (Operation.Site × List Json)} {offered : List CatalogType}
    (h : Adds b p sites offered p') (hp : p.Apt) : p'.Apt := by
  induction h with
  | done => exact hp
  | next hparameters hresponses hmethod _ ih =>
    obtain ⟨_, _, _, _, hparameters', hresponses', hp₃, _⟩ := run_method hmethod
    subst hp₃
    exact ih ((queues_operation hparameters' hresponses').apt hp)

end Builder

namespace Setup

open Builder

namespace Course

variable {setup : Setup} {document : Json} {c : Compilation} (course : setup.Course document c)

theorem run_built {e : Request × CatalogType} (h : e ∈ course.built ++ course.rest) :
    ∃ p₀ p₁, (course.builder.buildType e.1).run p₀ = .ok (e.2, p₁) ∧
      p₁.diagnostics <+: c.diagnostics := by
  rw [course.diagnostics_eq]
  rcases List.mem_append.1 h with h | h
  · obtain ⟨p₀, p₁, hrun, hremarks⟩ := course.drains.run_built h
    exact ⟨p₀, p₁, hrun, (hremarks.trans course.adds.added.diagnostics).trans
      course.drainsRest.settled.diagnostics⟩
  · exact course.drainsRest.run_built h

theorem apt_built {e : Request × CatalogType} (h : e ∈ course.built ++ course.rest) :
    e.1.Apt := by
  have hasked : course.asked.Apt := course.queues_asked.apt nofun
  have hdrained : course.drained.Apt := fun r hr => by
    rw [course.drains.settled.pending] at hr
    cases hr
  rcases List.mem_append.1 h with h | h
  · exact course.drains.apt hasked h
  · exact course.drainsRest.apt (course.adds.apt hdrained) h

end Course

/-- Every request that is entered is built, and the type shows what its schema declares by the
keywords that are read, where the schema is no reference: as fields, or as remarks. -/
theorem compile_shown {setup : Setup} {document : Json} {c : Compilation}
    (h : setup.compile document = .ok c) :
    Nonempty (setup.Course document c) ∧ ∀ course : setup.Course document c,
      course.progress.requested = (course.built ++ course.rest).map (·.1.entry) ∧
      ∀ e ∈ course.built ++ course.rest, e.2.name = e.1.name ∧
        (e.1.schema.reference = none → e.1.Shown course.builder e.2 c.diagnostics) := by
  refine ⟨compile_course h, fun course => ⟨course.requested, fun e he =>
    ⟨course.name_built he, fun hreference => ?_⟩⟩⟩
  obtain ⟨p₀, p₁, hrun, hremarks⟩ := course.run_built he
  have hshown := shown_of_run (course.apt_built he) hreference hrun
  exact hshown.mono (List.Subset.trans Progress.remarks_subset_diagnostics hremarks.subset)

/-- A document with keywords that are not read: alternatives of an object, properties of a string,
and properties next to alternatives. -/
def partlyRead : Json :=
  .object [("definitions", .object [
    ("Pet", .object [("type", .string "object"),
      ("properties", .object [("id", .object [("type", .string "string")])]),
      ("oneOf", .array [.object [("type", .string "boolean")],
        .object [("type", .string "integer")]])]),
    ("Code", .object [("type", .string "string"),
      ("properties", .object [("part", .object [("type", .string "string")])])]),
    ("Either", .object [
      ("properties", .object [("part", .object [("type", .string "string")])]),
      ("oneOf", .array [.object [("type", .string "boolean")]])])])]

theorem compile_partlyRead : ∃ c, compile {} partlyRead = .ok c ∧ c.diagnostics = [] ∧
    (∀ t ∈ c.catalog.types, t.name = "Pet" → ∀ f ∈ t.fields, f.type = .primitive .string) ∧
    ∀ t ∈ c.catalog.types, t.name = "Code" ∨ t.name = "Either" → ∀ f ∈ t.fields,
      f.name ≠ "part" := by
  have hresult : (compile {} partlyRead).toOption.map (fun c => (c.diagnostics,
      decide (∀ t ∈ c.catalog.types, t.name = "Pet" →
        ∀ f ∈ t.fields, f.type = .primitive .string),
      decide (∀ t ∈ c.catalog.types, t.name = "Code" ∨ t.name = "Either" → ∀ f ∈ t.fields,
        f.name ≠ "part"))) = some ([], true, true) := by
    decide +kernel
  obtain ⟨c, hc, heq⟩ := Option.map_eq_some_iff.1 hresult
  simp only [Prod.mk.injEq, decide_eq_true_eq] at heq
  exact ⟨c, eq_ok_of_toOption hc, heq⟩

/-- What the names of the definitions stand for. -/
theorem asked_partlyRead {c : Compilation} (course : Course {} partlyRead c) :
    (∃ s, course.asked.requested.lookup "Pet" = some s ∧ s.reference = none ∧
      s.typeName? = some "object" ∧ ∃ member rest, s.oneOf = some (member :: rest)) ∧
    (∃ s, course.asked.requested.lookup "Code" = some s ∧ s.reference = none ∧
      s.typeName? = some "string" ∧ (s.properties.getD []).map Prod.fst = ["part"]) ∧
    ∃ s, course.asked.requested.lookup "Either" = some s ∧ s.reference = none ∧
      s.keywords.type = none ∧ (s.properties.getD []).map Prod.fst = ["part"] := by
  have hresult : (do
      let scope ← ({} : Setup).scope partlyRead (Dialect.detect partlyRead)
      let normal ← ({} : Setup).normalize partlyRead
      (requestTypes (.new scope) (Dialect.detect partlyRead) normal).run {} :
        Outcome (Unit × Progress)).toOption.map (fun result =>
          ((result.2.requested.lookup "Pet").any fun s =>
            s.reference.isNone && s.typeName? == some "object" && s.oneOf.any (!·.isEmpty),
          (result.2.requested.lookup "Code").any fun s => s.reference.isNone &&
            s.typeName? == some "string" && (s.properties.getD []).map Prod.fst == ["part"],
          (result.2.requested.lookup "Either").any fun s => s.reference.isNone &&
            s.keywords.type.isNone && (s.properties.getD []).map Prod.fst == ["part"])) =
      some (true, true, true) := by
    decide +kernel
  have hrun : (do
      let scope ← ({} : Setup).scope partlyRead (Dialect.detect partlyRead)
      let normal ← ({} : Setup).normalize partlyRead
      (requestTypes (.new scope) (Dialect.detect partlyRead) normal).run {} :
        Outcome (Unit × Progress)) = .ok ((), course.asked) := by
    rw [course.scope_eq, course.normal_eq]
    exact course.asks
  rw [hrun] at hresult
  simp only [Option.map_some, Except.toOption, Option.some.injEq, Prod.mk.injEq,
    Option.any_eq_true, Bool.and_eq_true, beq_iff_eq, Option.isNone_iff_eq_none,
    and_assoc] at hresult
  obtain ⟨⟨pet, hpet, hreference, htype, members, hmembers, hsome⟩, hcode, heither⟩ := hresult
  refine ⟨⟨pet, hpet, hreference, htype, ?_⟩, hcode, heither⟩
  cases members with
  | nil => cases hsome
  | cons member rest => exact ⟨member, rest, hmembers⟩

theorem compile_shown_partlyRead : ∃ c, compile {} partlyRead = .ok c ∧
    ∃ course : Course {} partlyRead c, ∃ e ∈ course.built ++ course.rest,
      e.1.schema.reference = none ∧ e.1.schema.typeName? = some "object" ∧
        ∃ fields, fields <+: e.2.fields ∧ Accounted c.diagnostics (propertyParts e.1) fields := by
  obtain ⟨c, hc, _⟩ := compile_partlyRead
  obtain ⟨⟨course⟩, hcourse⟩ := compile_shown hc
  obtain ⟨⟨s, hs, hreference, htype, _⟩, _⟩ := asked_partlyRead course
  obtain ⟨e, he, heq, _⟩ := course.gives_of_asked hs
  subst heq
  exact ⟨c, hc, course, e, he, hreference, htype,
    (((hcourse course).2 e he).2 hreference).properties (.inl htype)⟩

theorem propertyPart_mem {r : Request} {key : String}
    (h : (r.schema.properties.getD []).map Prod.fst = [key]) :
    propertyPart r.name key ∈ propertyParts r := by
  have hkey : key ∈ (r.schema.properties.getD []).map Prod.fst := h ▸ List.mem_singleton_self key
  obtain ⟨entry, hentry, heq⟩ := List.mem_map.1 hkey
  exact heq ▸ List.mem_map_of_mem hentry

/-- Properties can be left out silently, with a declared type and without one, and alternatives can
be. -/
theorem exists_unread :
    (¬ ∀ {setup : Setup} {document : Json} {c : Compilation} (course : setup.Course document c),
      ∀ e ∈ course.built ++ course.rest, e.1.schema.reference = none →
        e.1.schema.keywords.type ≠ none →
        ∀ part ∈ propertyParts e.1, (∃ f ∈ e.2.fields, part.Fits f) ∨
          ∃ d ∈ c.diagnostics, part.path.toList <+: d.path.toList) ∧
    (¬ ∀ {setup : Setup} {document : Json} {c : Compilation} (course : setup.Course document c),
      ∀ e ∈ course.built ++ course.rest, e.1.schema.reference = none →
        e.1.schema.keywords.type = none →
        ∀ part ∈ propertyParts e.1, (∃ f ∈ e.2.fields, part.Fits f) ∨
          ∃ d ∈ c.diagnostics, part.path.toList <+: d.path.toList) ∧
    ¬ ∀ {setup : Setup} {document : Json} {c : Compilation} (course : setup.Course document c),
      ∀ e ∈ course.built ++ course.rest, e.1.schema.reference = none →
        ∀ members, e.1.schema.oneOf = some members →
          ∀ part ∈ course.builder.memberParts e.1.name "oneOf" 0 members,
            (∃ f ∈ e.2.fields, part.Fits f) ∨
              ∃ d ∈ c.diagnostics, e.1.name.toList <+: d.path.toList := by
  obtain ⟨c, hc, hdiagnostics, hpet, hothers⟩ := compile_partlyRead
  obtain ⟨course⟩ := compile_course hc
  obtain ⟨⟨pet, hpetAsked, hpetReference, _, member, rest, hmembers⟩,
    ⟨code, hcodeAsked, hcodeReference, htype, hcodeKeys⟩,
    either, heitherAsked, heitherReference, hnone, heitherKeys⟩ := asked_partlyRead course
  have hunremarked {P : Diagnostic → Prop} : ¬ ∃ d ∈ c.diagnostics, P d := by
    rw [hdiagnostics]
    rintro ⟨d, hd, _⟩
    cases hd
  refine ⟨fun hclaim => ?_, fun hclaim => ?_, fun hclaim => ?_⟩
  · obtain ⟨e, he, heq, hname, htypes⟩ := course.gives_of_asked hcodeAsked
    subst heq
    have htyped : e.1.schema.keywords.type ≠ none :=
      Option.isSome_iff_ne_none.1 (typed_of_typeName htype)
    rcases hclaim course e he hcodeReference htyped _ (propertyPart_mem hcodeKeys) with
      ⟨f, hf, hfits⟩ | hremark
    · exact hothers e.2 htypes (.inl hname) f hf hfits
    · exact hunremarked hremark
  · obtain ⟨e, he, heq, hname, htypes⟩ := course.gives_of_asked heitherAsked
    subst heq
    rcases hclaim course e he heitherReference hnone _ (propertyPart_mem heitherKeys) with
      ⟨f, hf, hfits⟩ | hremark
    · exact hothers e.2 htypes (.inr hname) f hf hfits
    · exact hunremarked hremark
  · obtain ⟨e, he, heq, hname, htypes⟩ := course.gives_of_asked hpetAsked
    subst heq
    rcases hclaim course e he hpetReference _ hmembers _ List.mem_cons_self with
      ⟨f, hf, hfits⟩ | hremark
    · have hstring := hpet e.2 htypes hname f hf
      simp only [memberPart, hstring] at hfits
      split at hfits
      · cases hfits.2
      · cases hfits.2.2
    · exact hunremarked hremark

end Setup

end SchemaCatalog
