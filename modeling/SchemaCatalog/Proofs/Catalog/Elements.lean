import SchemaCatalog.Proofs.Catalog.Sharing
import SchemaCatalog.Proofs.Catalog.Coverage

namespace SchemaCatalog

def Field.spec (f : Field) : FieldSpec where
  type := f.type
  kind := f.kind
  repeated := f.repeated
  mapValueType := f.mapValueType

@[simp]
theorem Builder.spec_field (b : Builder) (spec : FieldSpec) (name : String)
    (description : Option String) : (b.field spec name description).spec = spec :=
  rfl

/-- A field for an alternative is a boolean or of a type of the catalog. -/
def Field.IsAlternative (f : Field) : Prop :=
  f.spec = .scalar .bool ∨ ∃ name, f.spec = .one (.named name)

theorem Field.IsAlternative.plain {f : Field} (h : f.IsAlternative) : f.spec.isPlain = true := by
  obtain hspec | ⟨name, hspec⟩ := h
  · rw [hspec]
    rfl
  · rw [hspec]
    exact FieldSpec.isPlain_one _

/-- The type has a single field, and this holds what the specification says. -/
def CatalogType.Represents (type : CatalogType) (spec : FieldSpec) : Prop :=
  ∃ f, type.fields = [f] ∧ f.spec = spec

theorem CatalogType.represents_iff {b : Builder} {type : CatalogType} {found : Option FieldSpec}
    {name : String} {description : Option String}
    (h : type.fields = found.toList.map fun spec => b.field spec name description)
    {spec : FieldSpec} : type.Represents spec ↔ found = some spec := by
  unfold Represents
  rw [h]
  cases found with
  | none => simp
  | some found =>
    constructor
    · intro hfield
      obtain ⟨f, hf, hspec⟩ := hfield
      cases hf
      exact congrArg some hspec
    · intro hfound
      cases hfound
      exact ⟨_, rfl, rfl⟩

/-- After a request without a remark its name stands for an equal schema, and if the name is new it
stands for this very schema, and the request waits. -/
theorem Progress.Receives.stands {p p' : Progress} {r : Request} (h : p.Receives r p')
    (hquiet : p'.diagnostics = p.diagnostics) : ∃ known,
      p'.requested.lookup r.name = some known ∧ (known == r.schema) = true ∧
      (¬ p.Answers r.name → known = r.schema ∧ p'.pending = p.pending ++ [r]) := by
  cases h with
  | known hlookup hsame =>
    exact ⟨_, hlookup, hsame, fun hnone => absurd (answers_of_lookup hlookup) hnone⟩
  | collides =>
    have hlength := congrArg List.length hquiet
    simp at hlength
  | enters hnone =>
    refine ⟨r.schema, ?_, BEq.rfl, fun _ => ⟨rfl, rfl⟩⟩
    rw [List.lookup_append, lookup_of_not_answers hnone, Option.none_or, List.lookup_cons_self]

namespace Schema

variable {s : Schema}

theorem nonempty_of_shape (h : s.shape ≠ .anything) : s.isEmpty = false := by
  rw [Bool.eq_false_iff]
  exact fun hempty => h (same_iff.1 hempty).shape

theorem typeName_of_shape (h : s.shape = .array) : s.typeName? = some "array" := by
  unfold shape at h
  split at h
  · rename_i type htype
    rw [htype]
    grind
  · grind

theorem of_shape_anyOf (h : s.shape = .anyOf) : s.isObject = false ∧ s.oneOf.isSome = false := by
  unfold shape at h
  split at h <;> grind

end Schema

namespace Builder

variable {b : Builder} {r : Request} {stub : String} {s : Schema} {spec : FieldSpec}

theorem plain_of_shape (hr : r.Apt) (h : r.schema.shape ≠ .choice) : r.asChoice = false := by
  rw [Bool.eq_false_iff]
  exact fun hchoice => h (hr hchoice).2

theorem formOf_of_lists (hr : r.Apt) (h : r.schema.Lists) : formOf r = .alias := by
  obtain ⟨hreference, hshape | ⟨hshape, members, hmembers, helement⟩⟩ := h
  · have htype := Schema.typeName_of_shape hshape
    exact formOf_alias hr (typed_of_typeName htype) (by rw [htype]; decide)
  · have hplain : r.asChoice = false := plain_of_shape hr (by rw [hshape]; decide)
    have hempty : r.schema.isEmpty = false := Schema.nonempty_of_shape (by rw [hshape]; decide)
    have hsingle : (Schema.singleOrArray members).isNone = false := by
      rw [← Option.not_isSome, helement]
      rfl
    obtain ⟨hobject, hchoice⟩ := Schema.of_shape_anyOf hshape
    simp [formOf, hplain, hempty, hobject, hchoice, hmembers, hsingle]

theorem formOf_of_tables (hr : r.Apt) (h : r.schema.Tables) : formOf r =
    if r.schema.keywords.type.isSome || r.schema.oneOf.isNone then .object else .choice := by
  obtain ⟨hreference, hshape, _⟩ := h
  have hplain : r.asChoice = false := plain_of_shape hr (by rw [hshape]; decide)
  have hobject : r.schema.isObject = true := Schema.isObject_of_shape hshape
  rw [formOf, hplain, hreference, hobject]
  cases r.schema.keywords.type <;> cases r.schema.oneOf <;> rfl

/-- Only lists and tables are not plain, and only tables are held by a map. -/
theorem lists_or_tables (h : b.specOf stub s = some spec) (hnested : spec.isPlain = false) :
    s.Lists ∧ spec.kind ≠ .map ∨ s.Tables ∧ spec.kind = .map := by
  have hplain {type : TypeRef} (h : some (FieldSpec.one type) = some spec) : False := by
    cases h
    rw [FieldSpec.isPlain_one] at hnested
    cases hnested
  have hlist {type : TypeRef} : (FieldSpec.one type).many.kind ≠ .map := by
    cases type <;> nofun
  rw [specOf_eq] at h
  generalize hholding : s.holding = holding at h
  cases holding with
  | list element segment =>
    obtain ⟨found, _, hspec⟩ := Option.map_eq_some_iff.1 h
    exact .inl ⟨Schema.lists_of_holding hholding, hspec ▸ hlist⟩
  | table value =>
    refine .inr ⟨Schema.tables_of_holding hholding, ?_⟩
    dsimp only at h
    generalize b.specOf (stub ++ "Value") value = found at h
    cases found <;> cases h <;> rfl
  | plainly found =>
    rcases Schema.cases_of_plainly hholding with ⟨p, hfound⟩ | ⟨hlists, hfound⟩ | ⟨htables, hfound⟩
    · exact (hplain (hfound ▸ h)).elim
    · cases h
      exact .inl ⟨hlists, hfound ▸ hlist⟩
    · cases h
      exact .inr ⟨htables, hfound ▸ rfl⟩
  | follows reference => exact (hplain h).elim
  | typed asChoice => exact (hplain h).elim
  | refused code message => cases h

theorem yields_buildAlias (b : Builder) (r : Request) : ∃ names,
    Yields (b.buildAlias r) { name := r.name, kind := .scalarAlias, fields :=
      (b.specOf r.stub r.schema).toList.map fun spec => b.field spec "value" none } names
      (b.needed r.schema) := by
  obtain ⟨names, _, hfield⟩ := yields_fieldFor b r.stub r.schema
  exact ⟨names, yields_map (hfield _) _⟩

/-- What stands for the values of undeclared keys. -/
def undeclared (b : Builder) (stub : String) (s : Schema) : Option TypeRef :=
  match s.additionalProperties with
  | some (.allowed true) => some (.primitive .any)
  | some (.schema value) =>
    (b.specOf (stub ++ "Value") value).map (b.elementRef (stub ++ "Value"))
  | _ => none

theorem yields_additionalType (b : Builder) (h : r.schema.Tables) : ∃ names,
    Yields (b.additionalType r) (b.undeclared r.stub r.schema) names (b.needed r.schema) := by
  rw [needed, Schema.endsIn_eq, Schema.holding_of_tables h]
  obtain ⟨_, _, hproperties, _⟩ := h
  unfold additionalType undeclared
  rw [hproperties]
  cases hadditional : r.schema.additionalProperties with
  | none => exact ⟨[], yields_pure none⟩
  | some additional =>
    cases additional with
    | allowed verdict => cases verdict <;> exact ⟨[], yields_pure _⟩
    | schema value =>
      obtain ⟨names, _, hvalue⟩ := yields_fieldFor b (r.stub ++ "Value") value
      have helement := yields_element b (hvalue s!"{r.name}/additionalProperties") value
        (r.stub ++ "Value") s!"{r.name}/additionalProperties" none fun type => type
      rw [Option.or_none] at helement
      exact ⟨_, helement⟩

theorem buildObject_of_tables (b : Builder) (h : r.schema.Tables) : b.buildObject r = (do
    let value ← b.additionalType r
    return {
      name := r.name
      kind := if value.isSome then .map else .struct
      fields := (value.map .map).toList.map fun spec => b.field spec "additionalProperties" none
      required := distinctNames (r.schema.keywords.required.getD [])
      isOpen := value.isSome }) := by
  obtain ⟨_, hshape, hproperties, hpatterns⟩ := h
  have hempty : r.schema.isEmpty = false := Schema.nonempty_of_shape (by rw [hshape]; decide)
  unfold buildObject
  simp [hproperties, hpatterns, hempty, collectFields, Option.toList_map, Function.comp_def]

theorem undeclared_of_same {t : Schema} (b : Builder) (stub : String) (h : s.same t = true) :
    b.undeclared stub s = b.undeclared stub t := by
  have hadditional := (Schema.same_iff.1 h).additionalProperties
  unfold undeclared
  generalize s.additionalProperties = additional at hadditional ⊢
  generalize t.additionalProperties = additional' at hadditional ⊢
  cases hadditional with
  | none => rfl
  | some h =>
    cases h with
    | allowed => rfl
    | schema h =>
      dsimp only
      rw [specOf_of_same b _ h]

theorem map_undeclared_iff (h : s.Tables) : (b.undeclared stub s).map .map = some spec ↔
    b.specOf stub s = some spec ∧ (b.undeclared stub s).isSome = true := by
  rw [specOf_eq, Schema.holding_of_tables h, undeclared]
  cases s.additionalProperties with
  | none => simp
  | some additional =>
    cases additional with
    | allowed verdict => cases verdict <;> simp
    | schema value =>
      dsimp only
      cases b.specOf (stub ++ "Value") value <;> simp

/-- The type of a table says what the values are: no alternatives come first, and the values of
undeclared keys are declared and can be held. -/
def declares (b : Builder) (stub : String) (s : Schema) : Bool :=
  (s.keywords.type.isSome || s.oneOf.isNone) && (b.undeclared stub s).isSome

theorem declares_of_same {t : Schema} (b : Builder) (stub : String) (h : s.same t = true) :
    b.declares stub s = b.declares stub t := by
  have hsame := Schema.same_iff.1 h
  rw [declares, declares, (Keywords.deciding_of_same hsame.keywords).2.1,
    optionRel_isNone hsame.oneOf, undeclared_of_same b stub h]

theorem ensures_memberField (path keyword : String) (member : Schema) (p : Progress) :
    Ensures (b.memberField path keyword member) p
      (fun found _ => ∀ f ∈ found, f.IsAlternative) fun _ => True := by
  unfold memberField
  split
  · rename_i reference _
    have hreference := yields_referenceSpec b reference path p
    dsimp only
    apply ensures_bind hreference.well
    intro found p' hfound
    rw [hfound.1]
    refine ensures_pure fun f hf => ?_
    rw [Option.mem_some_iff] at hf
    rw [← hf]
    exact .inr ⟨b.nameOf reference, rfl⟩
  · split
    · refine ensures_pure fun f hf => ?_
      cases hf
      exact .inl rfl
    · refine ensures_modify_bind (ensures_pure fun f hf => ?_)
      cases hf

theorem ensures_memberFields (path keyword : String) (i : Nat) (members : List Schema)
    (p : Progress) : Ensures (b.memberFields path keyword i members) p
      (fun fields _ => ∀ f ∈ fields, f.IsAlternative) fun _ => True := by
  induction members generalizing i p with
  | nil => exact ensures_pure fun f hf => absurd hf List.not_mem_nil
  | cons member rest ih =>
    unfold memberFields
    apply ensures_bind (ensures_memberField _ keyword member p)
    intro found p₁ hfound
    apply ensures_bind (ih (i + 1) p₁)
    intro fields p₂ hfields
    refine ensures_pure fun f hf => ?_
    rcases List.mem_append.1 hf with hf | hf
    · exact hfound f (Option.mem_toList.1 hf)
    · exact hfields f hf

theorem represents_of_yields {x : BuildM CatalogType} {built : CatalogType}
    {names needs : List String} (hx : Yields x built names needs) {q : Progress}
    (hq : ∀ name ∈ needs, q.Answers name) :
    (∃ built q', x.run q = .ok (built, q') ∧ built.Represents spec) ↔ built.Represents spec := by
  obtain ⟨q₁, hrun, _⟩ := hx.run hq
  constructor
  · intro h
    obtain ⟨built', q', hrun', hrepresents⟩ := h
    cases hrun.symm.trans hrun'
    exact hrepresents
  · exact fun h => ⟨built, q₁, hrun, h⟩

theorem not_represents_of_choice (hform : formOf r = .choice) (hnested : spec.isPlain = false)
    {q q' : Progress} {built : CatalogType} (h : (b.buildType r).run q = .ok (built, q')) :
    ¬ built.Represents spec := by
  rw [buildType, hform] at h
  obtain ⟨choice, q₁, hchoice, h⟩ := run_bind h
  cases h
  obtain ⟨fields, q₂, hfields, hchoice⟩ := run_bind hchoice
  cases hchoice
  have halternatives := (ensures_memberFields _ _ _ _ _).of_ok hfields
  rintro ⟨f, hf, hspec⟩
  have hmem : f ∈ fields := by
    rw [show fields = [f] from hf]
    exact List.mem_singleton_self f
  rw [← hspec, (halternatives f hmem).plain] at hnested
  cases hnested

/-- The type that is built for a list or table holds what a field for it holds. For tables, this is
so where the type says what the values are. -/
theorem builds_iff (hr : r.Apt) (h : b.specOf stub r.schema = some spec)
    (hnested : spec.isPlain = false) {q : Progress}
    (hq : ∀ name ∈ b.needed r.schema, q.Answers name) :
    (∃ built q', (b.buildType r).run q = .ok (built, q') ∧ built.Represents spec) ↔
      b.specOf r.stub r.schema = some spec ∧
        (spec.kind = .map → b.declares r.stub r.schema = true) := by
  rcases lists_or_tables h hnested with ⟨hlists, hkind⟩ | ⟨htables, hkind⟩
  · obtain ⟨names, halias⟩ := yields_buildAlias b r
    rw [buildType, formOf_of_lists hr hlists, represents_of_yields (yields_map halias _) hq,
      CatalogType.represents_iff rfl]
    exact (and_iff_left fun hmap => absurd hmap hkind).symm
  · have hform := formOf_of_tables hr htables
    rw [forall_prop_of_true hkind, declares, Bool.and_eq_true, and_left_comm,
      ← map_undeclared_iff htables]
    cases hfirst : r.schema.keywords.type.isSome || r.schema.oneOf.isNone with
    | false =>
      -- alternatives come first, and the fields for them are references and booleans
      rw [hfirst, if_neg Bool.false_ne_true] at hform
      constructor
      · rintro ⟨built, q', hrun, hrepresents⟩
        exact absurd hrepresents (not_represents_of_choice hform hnested hrun)
      · intro hdeclares
        cases hdeclares.1
    | true =>
      rw [hfirst, if_pos rfl] at hform
      obtain ⟨names, hvalue⟩ := yields_additionalType b htables
      rw [buildType, hform, buildObject_of_tables b htables,
        represents_of_yields (yields_map (yields_map hvalue _) _) hq,
        CatalogType.represents_iff rfl]
      exact (and_iff_right rfl).symm

def elementRequest (b : Builder) (stub path : String) (element : Schema) : Request where
  name := b.typeName stub
  stub := stub
  path := path
  schema := element

/-- A list or table that is an element stands for a type that was requested for an equal schema. The
type built for it, at any later point, has one field, which holds what the element was found to be:
exactly if the same is found for the stub of the request, and if the type of a table says what the
values are. -/
theorem elementType_represents_iff {path path' : String} {element : Schema} {p p₁ p₂ : Progress}
    {type : TypeRef} (hfield : (b.fieldFor stub path element).run p = .ok (some spec, p₁))
    (hnested : spec.isPlain = false)
    (htype : (b.elementType spec element stub path').run p₁ = .ok (type, p₂))
    (hquiet : p₂.diagnostics = p₁.diagnostics) :
    type = .named (b.typeName stub) ∧ ∃ known,
      p₂.requested.lookup (b.typeName stub) = some known ∧ (known == element) = true ∧
      (¬ p₁.Answers (b.typeName stub) →
        known = element ∧ p₂.pending = p₁.pending ++ [b.elementRequest stub path' element]) ∧
      ∀ r : Request, r.Apt → r.schema = known →
        ∀ q : Progress, (∀ name, p₂.Answers name → q.Answers name) →
          ((∃ built q', (b.buildType r).run q = .ok (built, q') ∧ built.Represents spec) ↔
            b.specOf r.stub element = some spec ∧
              (spec.kind = .map → b.declares r.stub element = true)) := by
  obtain ⟨hspec, hneeded⟩ := spec_of_run b hfield
  have hrequest : b.elementType spec element stub path' =
      request (b.elementRequest stub path' element) := by
    rw [elementType, hnested]
    rfl
  rw [hrequest] at htype
  obtain ⟨htype, hreceives⟩ := (ensures_request _ _).of_ok htype
  obtain ⟨known, hlookup, hknown, hnew⟩ := hreceives.stands hquiet
  refine ⟨htype, known, hlookup, hknown, hnew, fun r hr hschema q hq => ?_⟩
  subst hschema
  have hsame : r.schema.same element = true := hknown
  have hfound : b.specOf stub r.schema = some spec := (specOf_of_same b stub hsame).trans hspec.symm
  rw [← specOf_of_same b r.stub hsame, ← declares_of_same b r.stub hsame]
  refine builds_iff hr hfound hnested fun name hname => ?_
  rw [needed, Schema.endsIn_of_same hsame] at hname
  exact hq name ((hreceives.gains.answers name).2 (.inl (hneeded name hname)))

theorem run_numberRow (p : Progress) (path : String) :
    ((Builder.new ⟨{}, {}⟩).fieldFor "matrixItem" path numberRow).run p =
      .ok (some (FieldSpec.scalar .float).many, p) := by
  rw [fieldFor_eq, show numberRow.holding = .list (.ofType "number") "/items" from rfl, hold,
    fieldFor_eq, show Schema.holding _ = .plainly _ from rfl]
  rfl

theorem elementType_represents_iff_numberRow : ∃ p built q,
    ((Builder.new ⟨{}, {}⟩).elementType (FieldSpec.scalar .float).many numberRow "matrixItem"
      "Table/properties/matrix/items").run {} = .ok (.named "MatrixItem", p) ∧
    p.pending.map Request.name = ["MatrixItem"] ∧
    ((Builder.new ⟨{}, {}⟩).buildType ((Builder.new ⟨{}, {}⟩).elementRequest "matrixItem"
      "Table/properties/matrix/items" numberRow)).run p = .ok (built, q) ∧
    built.Represents (FieldSpec.scalar .float).many := by
  let b := Builder.new ⟨{}, {}⟩
  let path := "Table/properties/matrix/items"
  have hnew : ¬ Progress.Answers {} (b.typeName "matrixItem") := by
    rintro (h | h) <;> cases h
  have hrun : ∃ type p, (b.elementType (FieldSpec.scalar .float).many numberRow "matrixItem"
      path).run {} = .ok (type, p) ∧ p.diagnostics = [] := ⟨_, _, rfl, rfl⟩
  obtain ⟨type, p, hrun, hquiet⟩ := hrun
  have hfield := run_numberRow {} path
  obtain ⟨htype, known, _, _, hrequest, hbuilds⟩ :=
    elementType_represents_iff hfield (by decide) hrun hquiet
  obtain ⟨hknown, hpending⟩ := hrequest hnew
  have hrow := hbuilds (b.elementRequest "matrixItem" path numberRow) nofun hknown.symm p
    fun _ h => h
  obtain ⟨built, q, hbuilt, hrepresents⟩ := hrow.2 ⟨(spec_of_run b hfield).1.symm, nofun⟩
  have hname : b.typeName "matrixItem" = "MatrixItem" := by decide +kernel
  rw [hname] at htype
  refine ⟨p, built, q, htype ▸ hrun, ?_, hbuilt, hrepresents⟩
  rw [hpending, ← hname]
  rfl

/-- An object without properties is held as a table, but the type that is built for it has no
field. -/
theorem exists_element_unrepresented : ¬ ∀ (b : Builder) (stub path : String) (element : Schema)
    (p p₁ p₂ q : Progress) (spec : FieldSpec) (type : TypeRef) (built : CatalogType),
    (b.fieldFor stub path element).run p = .ok (some spec, p₁) → spec.isPlain = false →
    (b.elementType spec element stub path).run p₁ = .ok (type, p₂) →
    p₂.diagnostics = p₁.diagnostics →
    p₂.pending = p₁.pending ++ [b.elementRequest stub path element] →
    (b.buildType (b.elementRequest stub path element)).run p₂ = .ok (built, q) →
    built.Represents spec := by
  intro h
  let b := Builder.new ⟨{}, {}⟩
  have hfield : (b.fieldFor "rowsItem" "Schema/properties/rows/items" (.ofType "object")).run {} =
      .ok (some (.map (.primitive .any)), {}) := by
    rw [fieldFor_eq]
    rfl
  have hempty : (Schema.ofType "object").isEmpty = false := Schema.nonempty_of_shape (by decide)
  obtain ⟨f, hf, _⟩ := h b "rowsItem" _ _ _ _ _ _ _ _ _ hfield (by decide) rfl rfl rfl rfl
  rw [elementRequest, hempty] at hf
  cases hf

end Builder

end SchemaCatalog
