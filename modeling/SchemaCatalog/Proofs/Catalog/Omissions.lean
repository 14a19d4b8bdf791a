import SchemaCatalog.Proofs.Catalog.Targets

namespace SchemaCatalog

/-- The remark is about what stands at the path or below it. -/
def Diagnostic.Under (d : Diagnostic) (path : String) : Prop :=
  d.path = path ∨ ∃ rest, d.path = path ++ "/" ++ rest

theorem Diagnostic.Under.of_below {d : Diagnostic} {path : String} (key : String)
    (h : d.Under (path ++ "/" ++ key)) : d.Under path := by
  rcases h with h | ⟨rest, h⟩
  · exact .inr ⟨key, h⟩
  · exact .inr ⟨key ++ "/" ++ rest, by simp only [h, String.append_assoc]⟩

/-- A part of a schema that a field can stand for. -/
structure Part where
  /-- Where a remark tells that no field does. -/
  path : String
  /-- Whether a field stands for the part. -/
  Fits : Field → Prop

def Part.named (path name : String) : Part where
  path := path
  Fits f := f.name = name

/-- The fields stand for the parts in order, but for those with a remark in place of a field. -/
inductive Accounted (remarks : List Diagnostic) : List Part → List Field → Prop
  | nil : Accounted remarks [] []
  | field {part parts f fields} : part.Fits f → Accounted remarks parts fields →
    Accounted remarks (part :: parts) (f :: fields)
  | remark {part parts fields d} : d ∈ remarks → d.Under part.path →
    Accounted remarks parts fields → Accounted remarks (part :: parts) fields

namespace Accounted

variable {remarks remarks' : List Diagnostic} {parts parts' : List Part}
  {fields fields' : List Field}

theorem mono (h : Accounted remarks parts fields) (hsubset : remarks ⊆ remarks') :
    Accounted remarks' parts fields := by
  induction h with
  | nil => exact .nil
  | field hfits _ ih => exact .field hfits ih
  | remark hd hunder _ ih => exact .remark (hsubset hd) hunder ih

theorem append (h : Accounted remarks parts fields) (h' : Accounted remarks parts' fields') :
    Accounted remarks (parts ++ parts') (fields ++ fields') := by
  induction h with
  | nil => exact h'
  | field hfits _ ih => exact .field hfits ih
  | remark hd hunder _ ih => exact .remark hd hunder ih

theorem found_or_remarked (h : Accounted remarks parts fields) {part : Part}
    (hpart : part ∈ parts) :
    (∃ f ∈ fields, part.Fits f) ∨ ∃ d ∈ remarks, d.Under part.path := by
  induction h with
  | nil => cases hpart
  | field hfits _ ih =>
    rcases List.mem_cons.1 hpart with heq | hpart
    · exact .inl ⟨_, List.mem_cons_self, heq ▸ hfits⟩
    · exact (ih hpart).imp_left fun ⟨f, hf, hfits⟩ => ⟨f, List.mem_cons_of_mem _ hf, hfits⟩
  | remark hd hunder _ ih =>
    rcases List.mem_cons.1 hpart with heq | hpart
    · exact .inr ⟨_, hd, heq ▸ hunder⟩
    · exact ih hpart

end Accounted

namespace Progress

variable {p p' p'' : Progress}

def remarks (p p' : Progress) : List Diagnostic := p'.diagnostics.drop p.diagnostics.length

theorem remarks_of_append {new : List Diagnostic} (h : p.diagnostics ++ new = p'.diagnostics) :
    p.remarks p' = new := by
  rw [remarks, ← h, List.drop_left]

theorem remarks_subset_diagnostics : p.remarks p' ⊆ p'.diagnostics := List.drop_subset _ _

/-- What is recorded in the first of two steps, and what is recorded in the second, is recorded in
both together. -/
theorem Queues.remarks_subset (h : p.Queues p') (h' : p'.Queues p'') :
    p.remarks p' ⊆ p.remarks p'' ∧ p'.remarks p'' ⊆ p.remarks p'' := by
  obtain ⟨new, hnew⟩ := h.diagnostics
  obtain ⟨new', hnew'⟩ := h'.diagnostics
  have hboth : p.diagnostics ++ (new ++ new') = p''.diagnostics := by
    rw [← List.append_assoc, hnew, hnew']
  rw [remarks_of_append hnew, remarks_of_append hnew', remarks_of_append hboth]
  exact ⟨List.subset_append_left _ _, List.subset_append_right _ _⟩

end Progress

namespace Builder

variable {α β γ : Type} {path : String}

/-- Where the step finds nothing, all that it does is to leave one warning, at the path or below
it. -/
def Explains (path : String) (x : BuildM (Option α)) : Prop :=
  ∀ p, Ensures x p (fun a p' => a = none → ∃ d : Diagnostic, d.severity = .warning ∧
    d.Under path ∧ p' = { p with diagnostics := p.diagnostics ++ [d] }) fun _ => True

theorem explains_some (a : α) : Explains path (pure (some a)) := fun _ => ensures_pure nofun

theorem explains_found (x : BuildM α) : Explains path (do return some (← x)) :=
  fun _ => ensures_last fun _ _ => ensures_pure nofun

theorem explains_warn_none (code message : String) :
    Explains path (do warn code path message; return none : BuildM (Option α)) := by
  intro p
  apply ensures_modify_bind
  exact ensures_pure fun _ => ⟨⟨.warning, code, path, message⟩, rfl, .inl rfl, rfl⟩

theorem explains_bind {x : BuildM (Option α)} (hx : Explains path x)
    {f : Option α → BuildM (Option β)} (hnone : f none = pure none)
    (hsome : ∀ a p, Ensures (f (some a)) p (fun c _ => c ≠ none) fun _ => True) :
    Explains path (x >>= f) := by
  intro p
  apply ensures_bind (hx p)
  intro a p' hp'
  cases a with
  | none =>
    rw [hnone]
    exact ensures_pure fun _ => hp' rfl
  | some a => exact (hsome a p').mono (fun _ _ h hc => absurd hc h) fun _ he => he

variable (b : Builder)

theorem explains_listSpec {inner : BuildM (Option FieldSpec)} (hinner : Explains path inner)
    (element : Schema) (stub below : String) :
    Explains path (b.listSpec inner element stub below) :=
  explains_bind hinner rfl fun _ _ => ensures_last fun _ _ => ensures_pure nofun

theorem explains_tableSpec (inner : BuildM (Option FieldSpec)) (value : Schema)
    (stub below : String) : Explains path (b.tableSpec inner value stub below) := by
  intro p
  refine ensures_last fun spec p' => ?_
  cases spec with
  | none => exact ensures_pure nofun
  | some spec => exact ensures_last fun _ _ => ensures_pure nofun

theorem Explains.of_below {x : BuildM (Option α)} {segment : String}
    (h : Explains (path ++ segment) x) (hsegment : segment = "/items" ∨ segment = "") :
    Explains path x := by
  rcases hsegment with hsegment | hsegment <;> subst hsegment
  · refine fun p => (h p).mono (fun _ _ hfound hnone => ?_) fun _ he => he
    obtain ⟨d, hwarning, hunder, hp⟩ := hfound hnone
    have hpath : path ++ "/items" = path ++ "/" ++ "items" := by
      rw [String.append_assoc]
      rfl
    exact ⟨d, hwarning, Diagnostic.Under.of_below "items" (hpath ▸ hunder), hp⟩
  · rw [String.append_empty] at h
    exact h

theorem explains_fieldFor (stub path : String) (s : Schema) :
    Explains path (b.fieldFor stub path s) := by
  induction s using Schema.child_induction generalizing stub path with
  | h s ih =>
    rw [fieldFor_eq]
    cases hholding : s.holding with
    | follows reference => exact explains_found _
    | plainly spec => exact explains_some _
    | list element segment =>
      have helement := ih element (Schema.child_of_holding_list hholding)
      apply explains_listSpec b
      exact (helement _ _).of_below (Schema.segment_of_list hholding)
    | table value => exact explains_tableSpec b _ _ _ _
    | typed asChoice => exact explains_found _
    | refused code message => exact explains_warn_none _ _

/-- If a schema is left out, this is told by one warning at the path of the schema or below it, and
nothing else has happened. -/
theorem fieldFor_omitted {b : Builder} {stub path : String} {s : Schema} {p p' : Progress}
    (h : (b.fieldFor stub path s).run p = .ok (none, p')) :
    ∃ d : Diagnostic, d.severity = .warning ∧ d.Under path ∧
      p' = { p with diagnostics := p.diagnostics ++ [d] } :=
  (explains_fieldFor b stub path s p).of_ok h rfl

def nullRows : Schema :=
  let row : Schema := { Schema.ofType "array" with items := some (.single (.ofType "null")) }
  { Schema.ofType "array" with items := some (.single row) }

theorem fieldFor_omitted_nullRows : ∃ (p' : Progress) (d : Diagnostic),
    ((Builder.new ⟨{}, {}⟩).fieldFor "rows" "Table/properties/rows" nullRows).run {} =
      .ok (none, p') ∧ d.path = "Table/properties/rows/items/items" ∧
      d.Under "Table/properties/rows" ∧ p' = { diagnostics := [d] } := by
  have hrun : ((Builder.new ⟨{}, {}⟩).fieldFor "rows" "Table/properties/rows" nullRows).run {} =
      .ok (none, { diagnostics := [⟨.warning, "unsupported-type",
        "Table/properties/rows/items/items", "type \"null\" is not supported"⟩] }) := by
    rw [fieldFor_eq, show nullRows.holding = .list _ _ from rfl, hold, fieldFor_eq,
      show Schema.holding _ = .list _ _ from rfl, hold, fieldFor_eq]
    rfl
  obtain ⟨d, _, hunder, hp⟩ := fieldFor_omitted hrun
  cases hp
  exact ⟨_, _, hrun, rfl, hunder, rfl⟩

/-- The step only adds to the queue, and its fields stand for the parts, but for those that it
remarks on. -/
def Accounts (parts : List Part) (fields : α → List Field) (x : BuildM α) : Prop :=
  ∀ p, Ensures x p (fun a p' => p.Queues p' ∧ Accounted (p.remarks p') parts (fields a))
    fun _ => True

theorem accounts_nothing {fields : α → List Field} {a : α} (h : fields a = []) :
    Accounts [] fields (pure a) :=
  fun p => ensures_pure ⟨.refl p, h ▸ .nil⟩

theorem accounts_lift {parts : List Part} {fields : β → List Field} {x : Outcome α}
    {f : α → BuildM β} (hf : ∀ a, x = .ok a → Accounts parts fields (f a)) :
    Accounts parts fields (liftM x >>= f) :=
  fun p => ensures_lift_bind (fun a ha => hf a ha p) fun _ _ => trivial

theorem accounts_seq {parts parts' : List Part} {first : α → List Field}
    {second : β → List Field} {fields : γ → List Field} {x : BuildM α} {y : BuildM β}
    (hx : Accounts parts first x) (hy : Accounts parts' second y) (f : α → β → γ)
    (hf : ∀ a c, fields (f a c) = first a ++ second c) :
    Accounts (parts ++ parts') fields (do let a ← x; let c ← y; return f a c) := by
  intro p
  apply ensures_bind (hx p)
  intro a p' hp'
  apply ensures_bind (hy p')
  intro c p'' hp''
  obtain ⟨hqueues, ha⟩ := hp'
  obtain ⟨hqueues', hc⟩ := hp''
  obtain ⟨hsubset, hsubset'⟩ := hqueues.remarks_subset hqueues'
  refine ensures_pure ⟨hqueues.trans hqueues', ?_⟩
  rw [hf]
  exact (ha.mono hsubset).append (hc.mono hsubset')

theorem accounts_map {parts : List Part} {first : α → List Field} {fields : β → List Field}
    {x : BuildM α} (hx : Accounts parts first x) (f : α → β) (hf : ∀ a, fields (f a) = first a) :
    Accounts parts fields (do return f (← x)) := by
  intro p
  apply ensures_bind (hx p)
  intro a p' hp'
  exact ensures_pure ⟨hp'.1, (hf a).symm ▸ hp'.2⟩

theorem accounts_warn_none {part : Part} {fields : Option α → List Field} (hnone : fields none = [])
    (code message : String) :
    Accounts [part] fields (do warn code part.path message; return none) := by
  intro p
  apply ensures_modify_bind
  refine ensures_pure ⟨queues_record _ p, ?_⟩
  rw [Progress.remarks_of_append rfl, hnone]
  exact .remark (List.mem_singleton_self _) (.inl rfl) .nil

theorem accounts_fieldFor (stub path name : String) (schema : Schema)
    (description : Option String) : Accounts [.named path name] Option.toList (do
      return (← b.fieldFor stub path schema).map fun spec => b.field spec name description) := by
  intro p
  have hspec := (explains_fieldFor b stub path schema p).and
    (onlyQueues_fieldFor b stub path schema p)
  apply ensures_bind hspec.well
  intro spec p' hp'
  obtain ⟨hfound, hqueues⟩ := hp'
  refine ensures_pure ⟨hqueues, ?_⟩
  cases spec with
  | none =>
    obtain ⟨d, _, hunder, hp⟩ := hfound rfl
    subst hp
    rw [Progress.remarks_of_append rfl]
    exact .remark (List.mem_singleton_self d) hunder .nil
  | some spec => exact .field rfl .nil

end Builder

end SchemaCatalog
