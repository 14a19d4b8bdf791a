import SchemaCatalog.Proofs.Catalog.Methods
import SchemaCatalog.Compilation

namespace SchemaCatalog

namespace Catalog

/-- Every name of a type in the catalog is the name of exactly one type there. -/
structure Closed (c : Catalog) : Prop where
  fields : ∀ t ∈ c.types, ∀ f ∈ t.fields, ∀ name, .named name ∈ f.targets → c.hasType name = true
  distinct : c.typeNames.Nodup
  methods : ∀ m ∈ c.methods, ∀ name ∈ m.typeNames, c.hasType name = true

variable {c : Catalog}

theorem Closed.dangling_eq_nil (h : c.Closed) : c.dangling = [] := by
  refine List.flatMap_eq_nil_iff.2 fun t ht => List.flatMap_eq_nil_iff.2 fun f hf => ?_
  refine List.filterMap_eq_nil_iff.2 fun name hname => if_pos ?_
  obtain ⟨type, htype, hn⟩ := List.mem_filterMap.1 hname
  cases type with
  | primitive p => cases hn
  | named _ =>
    cases hn
    exact h.fields t ht f hf name htype

theorem type?_eq_some {types : List CatalogType} (h : (types.map (·.name)).Nodup)
    {t : CatalogType} (ht : t ∈ types) : types.find? (·.name == t.name) = some t := by
  induction types with
  | nil => cases ht
  | cons first rest ih =>
    rw [List.map_cons, List.nodup_cons] at h
    cases ht with
    | head => simp
    | tail _ ht =>
      have hne : first.name ≠ t.name := fun he => h.1 (he ▸ List.mem_map_of_mem ht)
      rw [List.find?_cons_of_neg (by simpa using hne)]
      exact ih h.2 ht

end Catalog

theorem Builder.Drained.closed {p : Progress} (h : Builder.Drained p) : p.catalog.Closed := by
  obtain ⟨hsound, hnone⟩ := h
  refine ⟨fun t ht f hf name hname => ?_, hsound.distinct, hsound.methods⟩
  cases hsound.covered t ht name (List.mem_flatMap.2 ⟨f, hf, hname⟩) with
  | inl hthere => exact hthere
  | inr hrequested =>
    -- nothing waits any more, so what was requested is there
    obtain hthere | ⟨r, hr, _⟩ | hbuilding := hsound.settled name hrequested
    · exact hthere
    · rw [hnone] at hr
      cases hr
    · cases hbuilding

namespace Setup

open Builder

theorem ensures_requestDefinitions (b : Builder) (definitions : List (String × Schema))
    {p : Progress} (h : p.Sound []) :
    Ensures (b.requestDefinitions definitions) p (fun _ p' => p'.Sound []) fun _ => True := by
  induction definitions generalizing p with
  | nil => exact ensures_pure h
  | cons entry rest ih =>
    obtain ⟨key, schema⟩ := entry
    apply ensures_bind (asksFor_request _ p p.covers_nil)
    intro _ p₁ h₁
    exact ih (h.asks h₁.1)

theorem ensures_build (b : Builder) (document : Json) (dialect : Dialect) (root : Schema) :
    Ensures (build b document dialect root) {} (fun _ p => Drained p) fun _ => True := by
  have hrest {p : Progress} (h : p.Sound []) :
      Ensures (do
        b.requestDefinitions (root.definitions.getD [])
        b.drain
        if dialect.hasOperations then
          let _ ← Operation.addMethods b document dialect
          b.drain) p (fun _ p => Drained p) fun _ => True := by
    apply ensures_bind (ensures_requestDefinitions b _ h)
    intro _ p₁ h₁
    apply ensures_bind (ensures_drain b h₁)
    intro _ p₂ h₂
    split
    · apply ensures_bind (Operation.ensures_addMethods b document dialect h₂.1)
      exact fun _ p₃ h₃ => ensures_drain b h₃
    · exact ensures_pure h₂
  have hstart := Progress.sound_start
  unfold build
  dsimp only
  by_cases hroot : (dialect == .jsonSchema && describesValue root) = true
  · rw [if_pos hroot]
    apply ensures_bind (asksFor_request _ {} (Progress.covers_nil _))
    exact fun _ p₁ h₁ => hrest (hstart.asks h₁.1)
  · rw [if_neg hroot]
    exact hrest hstart

theorem compile_eq_ok {setup : Setup} {document : Json} {c : Compilation}
    (h : setup.compile document = .ok c) :
    ∃ b dialect root progress, (build b document dialect root).run {} = .ok ((), progress) ∧
      c.catalog = progress.catalog := by
  unfold compile at h
  obtain ⟨scope, _, h⟩ := bind_eq_ok h
  obtain ⟨root, _, h⟩ := bind_eq_ok h
  obtain ⟨normal, _, h⟩ := bind_eq_ok h
  obtain ⟨⟨_, progress⟩, hbuild, h⟩ := bind_eq_ok h
  cases h
  exact ⟨_, _, normal, progress, hbuild, rfl⟩

/-- Compiled catalogs have no dangling references: every named type of a field and every named value
type of a table is there. Type names are distinct, so each finds its type, and the types that
methods name are there too. -/
theorem compile_closed {setup : Setup} {document : Json} {c : Compilation}
    (h : setup.compile document = .ok c) :
    (c.catalog.dangling = [] ∧ ∀ t ∈ c.catalog.types, ∀ f ∈ t.fields, ∀ name,
      (f.type = .named name ∨ f.mapValueType = some (.named name)) →
        ∃ t' ∈ c.catalog.types, t'.name = name) ∧
    ((c.catalog.types.map (·.name)).Nodup ∧
      ∀ t ∈ c.catalog.types, c.catalog.type? t.name = some t) ∧
    ∀ m ∈ c.catalog.methods, ∀ name, m.parametersType = some name ∨ m.responsesType = some name →
      ∃ t ∈ c.catalog.types, t.name = name := by
  obtain ⟨b, dialect, root, progress, hbuild, hcatalog⟩ := compile_eq_ok h
  have hclosed := ((ensures_build b document dialect root).of_ok hbuild).closed
  rw [hcatalog]
  refine ⟨⟨hclosed.dangling_eq_nil, fun t ht f hf name hname => ?_⟩,
    ⟨hclosed.distinct, fun t ht => Catalog.type?_eq_some hclosed.distinct ht⟩,
    fun m hm name hname => ?_⟩
  · refine Catalog.hasType_iff.1 (hclosed.fields t ht f hf name ?_)
    cases hname with
    | inl hname => exact hname ▸ List.mem_cons_self
    | inr hname => exact List.mem_cons_of_mem _ (Option.mem_toList.2 hname)
  · refine Catalog.hasType_iff.1 (hclosed.methods m hm name ?_)
    refine List.mem_append.2 (hname.imp (fun hname => ?_) fun hname => ?_)
    · exact Option.mem_toList.2 hname
    · exact Option.mem_toList.2 hname

def petStore : Json :=
  .object [("swagger", .string "2.0"),
    ("paths", .object [("/pets", .object [("get", .object [
      ("parameters", .array [.object [("name", .string "limit"), ("type", .string "integer")]]),
      ("responses", .object [("200", .object [("schema", .object
        [("$ref", .string "#/definitions/Pet")])])])])])]),
    ("definitions", .object [
      ("Pet", .object [("properties", .object
        [("owner", .object [("$ref", .string "#/definitions/Owner")])])]),
      ("Owner", .object [("properties", .object
        [("name", .object [("type", .string "string")])])])])]

theorem compile_closed_petStore :
    ∃ c, compile {} petStore = .ok c ∧ c.catalog.dangling = [] ∧
      c.catalog.types.map (·.name) = ["Pet", "Owner", "GetPetsParameters", "GetPetsResponses"] := by
  have hnames : (compile {} petStore).toOption.map (fun c => c.catalog.types.map (·.name)) =
      some ["Pet", "Owner", "GetPetsParameters", "GetPetsResponses"] := by
    decide +kernel
  cases h : compile {} petStore with
  | error e =>
    rw [h] at hnames
    cases hnames
  | ok c =>
    rw [h] at hnames
    exact ⟨c, rfl, (compile_closed h).1.1, Option.some.inj hnames⟩

end Setup

end SchemaCatalog
