import SchemaCatalog.Proofs.Catalog.Targets

namespace SchemaCatalog

namespace Progress

/-- The names answer in addition to those that did. If they all did before, nothing has happened,
except that remarks may have been added. -/
structure Gains (names : List String) (p p' : Progress) : Prop where
  answers : ∀ name, p'.Answers name ↔ p.Answers name ∨ name ∈ names
  quiet : (∀ name ∈ names, p.Answers name) →
    ∃ new, p' = { p with diagnostics := p.diagnostics ++ new }

variable {p p' p'' : Progress} {names names' : List String}

theorem gains_nil (p : Progress) (new : List Diagnostic) :
    p.Gains [] { p with diagnostics := p.diagnostics ++ new } :=
  ⟨fun _ => by simp [Answers], fun _ => ⟨new, rfl⟩⟩

theorem Gains.trans (h : p.Gains names p') (h' : p'.Gains names' p'') :
    p.Gains (names ++ names') p'' where
  answers name := by
    rw [h'.answers, h.answers, List.mem_append, or_assoc]
  quiet hall := by
    obtain ⟨new, hnew⟩ := h.quiet fun name hname => hall name (List.mem_append_left _ hname)
    have hlater (name : String) (hname : name ∈ names') : p'.Answers name :=
      (h.answers name).2 (.inl (hall name (List.mem_append_right _ hname)))
    obtain ⟨new', hnew'⟩ := h'.quiet hlater
    subst hnew hnew'
    exact ⟨new ++ new', by rw [List.append_assoc]⟩

theorem gains_same {name : String} (h : p.Answers name) (new : List Diagnostic) :
    p.Gains [name] { p with diagnostics := p.diagnostics ++ new } := by
  refine ⟨fun other => ?_, fun _ => ⟨new, rfl⟩⟩
  constructor
  · exact .inl
  · intro hother
    rcases hother with hother | hother
    · exact hother
    · exact List.mem_singleton.1 hother ▸ h

theorem gains_entered {name : String} {s : Schema} (h : ¬ p.Answers name)
    (hcatalog : p'.catalog = p.catalog) (hrequested : p'.requested = p.requested ++ [(name, s)]) :
    p.Gains [name] p' := by
  refine ⟨fun other => ?_, fun hall => absurd (hall name (List.mem_singleton_self _)) h⟩
  rw [Answers, hcatalog, hrequested, List.mem_singleton, Answers, or_assoc]
  refine or_congr_right ?_
  simp [Entries.has, List.lookup_append, Option.isSome_or, Entries.lookup_cons]

theorem Receives.gains {r : Request} (h : p.Receives r p') : p.Gains [r.name] p' := by
  cases h with
  | known hknown _ =>
    have hsame := gains_same (answers_of_lookup hknown) []
    rwa [List.append_nil] at hsame
  | collides hanswers _ => exact gains_same hanswers _
  | enters hnone => exact gains_entered hnone rfl rfl

end Progress

namespace Builder

variable {α β : Type} {a : α} {c : β} {names names' needs needs' : List String}

/-- The step gives the value and asks for the names, from any state. It fails only where a name that
it needs a target for does not answer. -/
def Yields (x : BuildM α) (a : α) (names needs : List String) : Prop :=
  ∀ p : Progress, Ensures x p (fun a' p' => a' = a ∧ p.Gains names p')
    fun _ => ∃ name ∈ needs, ¬ p.Answers name

theorem Yields.run {x : BuildM α} (h : Yields x a names needs) {p : Progress}
    (hneeds : ∀ name ∈ needs, p.Answers name) : ∃ p', x.run p = .ok (a, p') ∧ p.Gains names p' := by
  rcases (h p).cases with ⟨a', p', hrun, heq, hgains⟩ | ⟨_, _, name, hname, hnone⟩
  · exact ⟨p', heq ▸ hrun, hgains⟩
  · exact absurd (hneeds name hname) hnone

theorem yields_pure (a : α) : Yields (pure a) a [] [] := by
  intro p
  have hsame := p.gains_nil []
  rw [List.append_nil] at hsame
  exact ensures_pure ⟨rfl, hsame⟩

theorem yields_bind {x : BuildM α} {f : α → BuildM β} (hx : Yields x a names needs)
    (hf : Yields (f a) c names' needs') :
    Yields (x >>= f) c (names ++ names') (needs ++ needs') := by
  intro p
  refine ensures_bind ((hx p).mono (fun _ _ h => h) fun _ he => ?_) fun a' p' hp' => ?_
  · obtain ⟨name, hname, hnone⟩ := he
    exact ⟨name, List.mem_append_left _ hname, hnone⟩
  · obtain ⟨heq, hgains⟩ := hp'
    subst heq
    refine (hf p').mono (fun c' p'' h => ⟨h.1, hgains.trans h.2⟩) fun _ he => ?_
    obtain ⟨name, hname, hnone⟩ := he
    refine ⟨name, List.mem_append_right _ hname, fun hanswers => hnone ?_⟩
    exact (hgains.answers name).2 (.inl hanswers)

theorem yields_map {x : BuildM α} (hx : Yields x a names needs) (f : α → β) :
    Yields (do return f (← x)) (f a) names needs := by
  have hmap : Yields (do return f (← x)) (f a) (names ++ []) (needs ++ []) :=
    yields_bind hx (yields_pure (f a))
  rwa [List.append_nil, List.append_nil] at hmap

theorem yields_warn (code path message : String) : Yields (warn code path message) () [] [] :=
  fun p => ensures_modify ⟨rfl, p.gains_nil _⟩

theorem yields_request (r : Request) : Yields (request r) (.named r.name) [r.name] [] :=
  fun p => (ensures_request r p).mono (fun _ _ h => ⟨h.1, h.2.gains⟩) fun _ he => he.elim

variable (b : Builder)

theorem yields_referenceSpec (reference path : String) :
    Yields (b.referenceSpec reference path) (.one (.named (b.nameOf reference)))
      [b.nameOf reference] [b.nameOf reference] := by
  intro p
  have hasks := asksFor_referenceSpec b reference path p p.covers_nil
  refine ((ensures_referenceSpec_target reference path p).and hasks).mono (fun spec p' h => ?_)
    fun _ h => ⟨_, List.mem_singleton_self _, h.1.1⟩
  obtain ⟨⟨hspec, htaken, hfree⟩, hasks, _⟩ := h
  refine ⟨hspec, ?_⟩
  by_cases hanswers : p.Answers (b.nameOf reference)
  · have hsame := Progress.gains_same hanswers []
    rw [List.append_nil] at hsame
    rwa [htaken hanswers]
  · obtain ⟨t, _, hp'⟩ := hfree hanswers
    have hrequested : p'.requested = p.requested ++ [(b.nameOf reference, t)] := by
      rw [hp', requested_targetRequest]
    exact Progress.gains_entered hanswers hasks.catalog hrequested

def elementRef (stub : String) (spec : FieldSpec) : TypeRef :=
  if spec.isPlain then spec.type else .named (b.typeName stub)

def elementNames (stub : String) (spec : Option FieldSpec) : List String :=
  if spec.all FieldSpec.isPlain then [] else [b.typeName stub]

theorem yields_elementType (spec : FieldSpec) (schema : Schema) (stub path : String) :
    Yields (b.elementType spec schema stub path) (b.elementRef stub spec)
      (b.elementNames stub (some spec)) [] := by
  unfold elementType elementRef elementNames
  rw [Option.all_some]
  split
  · exact yields_pure _
  · exact yields_request _

theorem yields_element {inner : BuildM (Option FieldSpec)} {spec : Option FieldSpec}
    (hinner : Yields inner spec names needs) (element : Schema) (stub path : String)
    (none' : Option α) (f : TypeRef → α) :
    Yields (do
      match ← inner with
      | none => return none'
      | some spec => return some (f (← b.elementType spec element stub path)))
      ((spec.map fun spec => f (b.elementRef stub spec)).or none')
      (names ++ b.elementNames stub spec) needs := by
  rw [← List.append_nil needs]
  apply yields_bind hinner
  cases spec with
  | none => exact yields_pure none'
  | some spec =>
    exact yields_map (yields_elementType b spec element stub path) fun type => some (f type)

/-- The field for the values of a schema. -/
def specOf (stub : String) (s : Schema) : Option FieldSpec :=
  match _h : s.holding with
  | .follows reference => some (.one (.named (b.nameOf reference)))
  | .plainly spec => some spec
  | .list element _ =>
    (specOf (stub ++ "Item") element).map fun spec =>
      (FieldSpec.one (b.elementRef (stub ++ "Item") spec)).many
  | .table value =>
    ((specOf (stub ++ "Value") value).map fun spec =>
      FieldSpec.map (b.elementRef (stub ++ "Value") spec)).or (some (.map (.primitive .any)))
  | .typed _ => some (.one (.named (b.typeName stub)))
  | .refused _ _ => none
termination_by s.size
decreasing_by
  · exact Schema.size_child (Schema.child_of_holding_list _h)
  · exact Schema.size_child (Schema.child_of_holding_table _h)

theorem specOf_eq (stub : String) (s : Schema) : b.specOf stub s =
    match s.holding with
    | .follows reference => some (.one (.named (b.nameOf reference)))
    | .plainly spec => some spec
    | .list element _ =>
      (b.specOf (stub ++ "Item") element).map fun spec =>
        (FieldSpec.one (b.elementRef (stub ++ "Item") spec)).many
    | .table value =>
      ((b.specOf (stub ++ "Value") value).map fun spec =>
        FieldSpec.map (b.elementRef (stub ++ "Value") spec)).or (some (.map (.primitive .any)))
    | .typed _ => some (.one (.named (b.typeName stub)))
    | .refused _ _ => none := by
  rw [specOf]
  cases s.holding <;> rfl

end Builder

/-- The reference that the values of a schema come down to, in lists and tables. -/
def Schema.endsIn (s : Schema) : Option String :=
  match _h : s.holding with
  | .follows reference => some reference
  | .list element _ => element.endsIn
  | .table value => value.endsIn
  | _ => none
termination_by s.size
decreasing_by
  · exact Schema.size_child (Schema.child_of_holding_list _h)
  · exact Schema.size_child (Schema.child_of_holding_table _h)

theorem Schema.endsIn_eq (s : Schema) : s.endsIn =
    match s.holding with
    | .follows reference => some reference
    | .list element _ => element.endsIn
    | .table value => value.endsIn
    | _ => none := by
  rw [endsIn]
  cases s.holding <;> rfl

namespace Builder

variable (b : Builder)

/-- The name that has to answer, or have a target, for a schema to be held. -/
def needed (s : Schema) : List String := (s.endsIn.map b.nameOf).toList

/-- Finding the field for a schema gives the same and asks for the same in every state and at every
path. It needs the target of the reference that the schema ends in, unless the name answers. -/
theorem yields_fieldFor (stub : String) (s : Schema) :
    ∃ names, b.needed s ⊆ names ∧ ∀ path,
      Yields (b.fieldFor stub path s) (b.specOf stub s) names (b.needed s) := by
  induction s using Schema.child_induction generalizing stub with
  | h s ih =>
    rw [specOf_eq, needed, Schema.endsIn_eq]
    simp only [fieldFor_eq]
    cases hholding : s.holding with
    | follows reference =>
      refine ⟨[b.nameOf reference], List.Subset.refl _, fun path => ?_⟩
      exact yields_map (yields_referenceSpec b reference path) some
    | plainly spec => exact ⟨[], List.Subset.refl _, fun _ => yields_pure _⟩
    | list element segment =>
      obtain ⟨names, hneeds, hinner⟩ :=
        ih element (Schema.child_of_holding_list hholding) (stub ++ "Item")
      let more := b.elementNames (stub ++ "Item") (b.specOf (stub ++ "Item") element)
      refine ⟨names ++ more, List.subset_append_of_subset_left _ hneeds, fun path => ?_⟩
      have hlist := yields_element b (hinner (path ++ segment)) element (stub ++ "Item")
        (path ++ segment) none fun type => (FieldSpec.one type).many
      rwa [Option.or_none] at hlist
    | table value =>
      obtain ⟨names, hneeds, hinner⟩ :=
        ih value (Schema.child_of_holding_table hholding) (stub ++ "Value")
      let more := b.elementNames (stub ++ "Value") (b.specOf (stub ++ "Value") value)
      refine ⟨names ++ more, List.subset_append_of_subset_left _ hneeds, fun path => ?_⟩
      exact yields_element b (hinner _) value (stub ++ "Value") _ (some (.map (.primitive .any)))
        FieldSpec.map
    | typed asChoice =>
      refine ⟨[b.typeName stub], List.nil_subset _, fun path => ?_⟩
      exact yields_map (yields_map (yields_request _) FieldSpec.one) some
    | refused code message =>
      refine ⟨[], List.Subset.refl _, fun path => ?_⟩
      exact yields_bind (yields_warn code path message) (yields_pure none)

theorem spec_of_run {stub path : String} {s : Schema} {p p' : Progress} {spec : Option FieldSpec}
    (h : (b.fieldFor stub path s).run p = .ok (spec, p')) :
    spec = b.specOf stub s ∧ ∀ name ∈ b.needed s, p'.Answers name := by
  obtain ⟨names, hneeds, hyields⟩ := yields_fieldFor b stub s
  obtain ⟨hspec, hgains⟩ := (hyields path p).of_ok h
  exact ⟨hspec, fun name hname => (hgains.answers name).2 (.inr (hneeds hname))⟩

/-- The field that is found for a schema is the same in every state and at every path, and finding
it again at once asks for nothing. -/
theorem fieldFor_settled {b : Builder} {stub path : String} {s : Schema} {p p' : Progress}
    {spec : Option FieldSpec} (h : (b.fieldFor stub path s).run p = .ok (spec, p')) :
    (∀ path q spec' q', (b.fieldFor stub path s).run q = .ok (spec', q') → spec' = spec) ∧
      ∀ path, ∃ new, (b.fieldFor stub path s).run p' =
        .ok (spec, { p' with diagnostics := p'.diagnostics ++ new }) := by
  obtain ⟨names, hneeds, hyields⟩ := yields_fieldFor b stub s
  obtain ⟨hspec, hgains⟩ := (hyields path p).of_ok h
  subst hspec
  have hanswers (name : String) (hname : name ∈ names) : p'.Answers name :=
    (hgains.answers name).2 (.inr hname)
  constructor
  · intro path' q spec' q' hrun
    exact (spec_of_run b hrun).1
  · intro path'
    obtain ⟨p'', hrun, hagain⟩ :=
      (hyields path').run fun name hname => hanswers name (hneeds hname)
    obtain ⟨new, hnew⟩ := hagain.quiet hanswers
    exact ⟨new, hnew ▸ hrun⟩

def numberRow : Schema :=
  { Schema.ofType "array" with items := some (.single (.ofType "number")) }

def numberRows : Schema :=
  { Schema.ofType "array" with items := some (.single numberRow) }

theorem run_numberRows : ∃ p' spec,
    ((Builder.new ⟨{}, {}⟩).fieldFor "matrix" "Table/properties/matrix" numberRows).run {} =
      .ok (some spec, p') ∧ p'.pending.map Request.name = ["MatrixItem"] := by
  rw [fieldFor_eq, show numberRows.holding = .list numberRow "/items" from rfl, hold, fieldFor_eq,
    show numberRow.holding = .list _ _ from rfl, hold, fieldFor_eq,
    show Schema.holding _ = .plainly _ from rfl]
  exact ⟨_, _, rfl, by decide +kernel⟩

theorem fieldFor_settled_numberRows : ∃ p' spec,
    p'.pending.map Request.name = ["MatrixItem"] ∧
    (∀ path q spec' q', ((Builder.new ⟨{}, {}⟩).fieldFor "matrix" path numberRows).run q =
      .ok (spec', q') → spec' = some spec) ∧
    ∀ path, ∃ new, ((Builder.new ⟨{}, {}⟩).fieldFor "matrix" path numberRows).run p' =
      .ok (some spec, { p' with diagnostics := p'.diagnostics ++ new }) := by
  obtain ⟨p', spec, hrun, hnames⟩ := run_numberRows
  exact ⟨p', spec, hnames, fieldFor_settled hrun⟩

end Builder

end SchemaCatalog
