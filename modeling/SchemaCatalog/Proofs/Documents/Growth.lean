import SchemaCatalog.Proofs.Documents.Collecting
import SchemaCatalog.Proofs.Schema.Filling
import Mathlib.Data.List.Nodup

namespace SchemaCatalog

namespace Json

/-- The text is the `$ref` of an object somewhere in a value. -/
inductive Refers (text : String) : Json → Prop
  | here {value : Json} : value.referenceText? = some text → Refers text value
  | item {items : List Json} {value : Json} : value ∈ items → Refers text value →
    Refers text (.array items)
  | member {members : List (String × Json)} {key : String} {value : Json} :
    (key, value) ∈ members → Refers text value → Refers text (.object members)

variable {text : String}

theorem mem_itemReferences {items : List Json} {value : Json} (hvalue : value ∈ items)
    (h : text ∈ value.references) : text ∈ itemReferences items := by
  induction items with
  | nil => cases hvalue
  | cons item rest ih =>
    rw [itemReferences]
    cases hvalue with
    | head => exact List.mem_append_left _ h
    | tail _ hrest => exact List.mem_append_right _ (ih hrest)

theorem mem_memberReferences {members : List (String × Json)} {key : String} {value : Json}
    (hvalue : (key, value) ∈ members) (h : text ∈ value.references) :
    text ∈ memberReferences members := by
  induction members with
  | nil => cases hvalue
  | cons member rest ih =>
    cases hvalue with
    | head => exact List.mem_append_left _ h
    | tail _ hrest => exact List.mem_append_right _ (ih hrest)

theorem Refers.mem_references {value : Json} (h : Refers text value) :
    text ∈ value.references := by
  induction h with
  | @here value htext =>
    cases value with
    | object members =>
      apply List.mem_append_left
      rw [htext]
      exact List.mem_singleton_self text
    | null => cases htext
    | bool _ => cases htext
    | number _ => cases htext
    | string _ => cases htext
    | array _ => cases htext
  | item hvalue _ ih => exact mem_itemReferences hvalue ih
  | member hvalue _ ih => exact List.mem_append_right _ (mem_memberReferences hvalue ih)

end Json

/-- A document that is loaded for an id that is met in a folder, and its root schema. -/
structure Loaded where
  folder : String
  id : String
  document : Json
  root : Schema

namespace Loaded

def source (l : Loaded) : Source := ⟨l.document, (locateDocument l.folder l.id).2⟩

def entry (l : Loaded) : String × Schema := (l.id, l.root)

/-- The document and its root schema are what the loader gives for the id. -/
structure Holds (load : Origin → Outcome Json) (l : Loaded) : Prop where
  document : load (locateDocument l.folder l.id).1 = .ok l.document
  root : rootSchema (Dialect.detect l.document) l.document = .ok l.root

end Loaded

/-- A registry has grown by the documents that were loaded, in order, each under an id of its own
that was not registered. -/
structure Growth (load : Origin → Outcome Json) (registry : Registry) (loads : List Loaded)
    (registry' : Registry) : Prop where
  documents : registry'.documents = registry.documents ++ loads.map Loaded.entry
  holds : ∀ l ∈ loads, l.Holds load
  fresh : ∀ l ∈ loads, registry.contains l.id = false
  distinct : (loads.map (·.id)).Nodup

variable {load : Origin → Outcome Json} {folder : String} {ids : List String}
  {registry registry₁ registry' : Registry} {met : List Mention} {scanned : List Source}
  {loads loads' : List Loaded}

namespace Growth

theorem nil (load : Origin → Outcome Json) (registry : Registry) :
    Growth load registry [] registry :=
  ⟨(List.append_nil _).symm, nofun, nofun, List.nodup_nil⟩

theorem one {l : Loaded} (hholds : l.Holds load) (hnew : registry.contains l.id = false) :
    Growth load registry [l] (registry.register l.id l.root) := by
  refine ⟨?_, ?_, ?_, List.nodup_singleton _⟩
  · rw [Registry.register, if_neg (by simp [hnew])]
    rfl
  · intro l' hl'
    rw [List.mem_singleton.1 hl']
    exact hholds
  · intro l' hl'
    rw [List.mem_singleton.1 hl']
    exact hnew

theorem contains_iff (h : Growth load registry loads registry') {id : String} :
    registry'.contains id = true ↔ registry.contains id = true ∨ id ∈ loads.map (·.id) := by
  have hhas (registry : Registry) : registry.contains id = registry.documents.has id := rfl
  have hkeys : Entries.keys (loads.map Loaded.entry) = loads.map (·.id) := by
    rw [Entries.keys, List.map_map]
    rfl
  rw [hhas, h.documents, Entries.has_append, Bool.or_eq_true, ← hhas,
    Entries.has_eq_contains (loads.map Loaded.entry), hkeys, List.contains_iff_mem]

theorem trans (h : Growth load registry loads registry₁)
    (h' : Growth load registry₁ loads' registry') :
    Growth load registry (loads ++ loads') registry' := by
  refine ⟨?_, ?_, ?_, ?_⟩
  · rw [h'.documents, h.documents, List.map_append, List.append_assoc]
  · intro l hl
    rcases List.mem_append.1 hl with hl | hl
    · exact h.holds l hl
    · exact h'.holds l hl
  · intro l hl
    rcases List.mem_append.1 hl with hl | hl
    · exact h.fresh l hl
    · have hlater := h'.fresh l hl
      cases hthere : registry.contains l.id with
      | false => rfl
      | true => exact absurd (h.contains_iff.2 (.inl hthere)) (by simp [hlater])
  · rw [List.map_append]
    apply List.Nodup.append h.distinct h'.distinct
    intro id hid hid'
    -- what was loaded before is registered when the later documents are met
    have hthere := h.contains_iff.2 (.inr hid)
    obtain ⟨l', hl', heq'⟩ := List.mem_map.1 hid'
    rw [← heq', h'.fresh l' hl'] at hthere
    cases hthere

end Growth

theorem Collects.exists_growth (h : Collects load folder ids registry met scanned registry') :
    ∃ loads, loads.map Loaded.source = scanned ∧ Growth load registry loads registry' := by
  induction h with
  | done => exact ⟨[], rfl, .nil load _⟩
  | known _ _ ih => exact ih
  | @loads folder id ids registry registry₁ registry' document root met met' scanned scanned'
      hnew hdocument hroot _ _ ih ih' =>
    obtain ⟨inner, hinner, hgrowth⟩ := ih
    obtain ⟨later, hlater, hgrowth'⟩ := ih'
    have hfirst : Growth load registry [⟨folder, id, document, root⟩] (registry.register id root) :=
      .one ⟨hdocument, hroot⟩ hnew
    refine ⟨_, ?_, hfirst.trans (hgrowth.trans hgrowth')⟩
    rw [List.singleton_append, List.map_cons, List.map_append, hinner, hlater]
    rfl

/-- With rounds enough, collecting gives what the rules say. -/
theorem Collects.foldlM (h : Collects load folder ids registry met scanned registry') :
    ∃ enough, ∀ fuel, enough ≤ fuel → ∀ loaded,
      ids.foldlM (collectStep load fuel folder) (registry, loaded) =
        .ok (registry', loaded + scanned.length) := by
  induction h with
  | done => exact ⟨0, fun _ _ _ => rfl⟩
  | known hknown _ ih =>
    obtain ⟨enough, h⟩ := ih
    refine ⟨enough, ?_⟩
    intro fuel hfuel loaded
    rw [List.foldlM_cons, collectStep_known hknown]
    exact h fuel hfuel loaded
  | @loads folder id ids registry registry₁ registry' document root met met' scanned scanned'
      hnew hdocument hroot _ _ ih ih' =>
    obtain ⟨inner, hinner⟩ := ih
    obtain ⟨later, hlater⟩ := ih'
    refine ⟨inner + 1 + later, ?_⟩
    intro fuel hfuel loaded
    obtain ⟨fuel, rfl⟩ : ∃ n, fuel = n + 1 := Nat.exists_eq_add_of_le' (by omega)
    rw [List.foldlM_cons, collectStep_new hnew hdocument hroot, collectFrom_succ,
      hinner fuel (by omega), ← length_scanned, Nat.zero_add]
    exact hlater (fuel + 1) (by omega) _

theorem Fails.foldlM {e : CatalogError} (h : Fails load folder ids registry e) :
    ∃ enough, ∀ fuel, enough ≤ fuel → ∀ loaded,
      ids.foldlM (collectStep load fuel folder) (registry, loaded) = .error e := by
  induction h with
  | known hknown _ ih =>
    obtain ⟨enough, h⟩ := ih
    refine ⟨enough, ?_⟩
    intro fuel hfuel loaded
    rw [List.foldlM_cons, collectStep_known hknown]
    exact h fuel hfuel loaded
  | here hnew hschema =>
    refine ⟨0, ?_⟩
    intro fuel _ loaded
    rw [List.foldlM_cons, collectStep_fails hnew hschema]
    rfl
  | within hnew hdocument hroot _ ih =>
    obtain ⟨inner, hinner⟩ := ih
    refine ⟨inner + 1, ?_⟩
    intro fuel hfuel loaded
    obtain ⟨fuel, rfl⟩ : ∃ n, fuel = n + 1 := Nat.exists_eq_add_of_le' (by omega)
    rw [List.foldlM_cons, collectStep_new hnew hdocument hroot, collectFrom_succ,
      hinner fuel (by omega)]
    rfl
  | later hnew hdocument hroot hcollects _ ih =>
    obtain ⟨inner, hinner⟩ := hcollects.foldlM
    obtain ⟨later, hlater⟩ := ih
    refine ⟨inner + 1 + later, ?_⟩
    intro fuel hfuel loaded
    obtain ⟨fuel, rfl⟩ : ∃ n, fuel = n + 1 := Nat.exists_eq_add_of_le' (by omega)
    rw [List.foldlM_cons, collectStep_new hnew hdocument hroot, collectFrom_succ,
      hinner fuel (by omega)]
    exact hlater (fuel + 1) (by omega) _

variable {result result' : Outcome (Registry × Nat)}

theorem Settles.collectFrom (h : Settles load folder ids registry 0 result) :
    ∃ enough, ∀ rounds, enough ≤ rounds → collectFrom load rounds folder ids registry = result := by
  obtain ⟨enough, h⟩ : ∃ enough, ∀ fuel, enough ≤ fuel →
      ids.foldlM (collectStep load fuel folder) (registry, 0) = result := by
    cases h with
    | collects h =>
      obtain ⟨enough, h⟩ := h.foldlM
      exact ⟨enough, fun fuel hfuel => h fuel hfuel 0⟩
    | fails h =>
      obtain ⟨enough, h⟩ := h.foldlM
      exact ⟨enough, fun fuel hfuel => h fuel hfuel 0⟩
  refine ⟨enough + 1, ?_⟩
  intro rounds hrounds
  obtain ⟨fuel, rfl⟩ : ∃ n, rounds = n + 1 := Nat.exists_eq_add_of_le' (by omega)
  exact h fuel (by omega)

theorem Settles.unique (h : Settles load folder ids registry 0 result)
    (h' : Settles load folder ids registry 0 result') : result = result' := by
  obtain ⟨enough, h⟩ := h.collectFrom
  obtain ⟨enough', h'⟩ := h'.collectFrom
  rw [← h (enough + enough') (by omega), h' (enough + enough') (by omega)]

/-- The registry has an entry for every document that one of the documents refers to. -/
def Registry.Closes (registry : Registry) (documents : List Json) : Prop :=
  ∀ document ∈ documents, ∀ text, document.Refers text → (Reference.parse text).document ≠ "" →
    registry.contains (Reference.parse text).document = true

theorem Collects.closes {document : Json}
    (h : Collects load folder document.referencedDocuments registry met scanned registry') :
    registry'.Closes (document :: scanned.map (·.document)) := by
  intro inner hinner text htext hne
  have hlisted := mem_referencedDocuments htext.mem_references hne
  rcases List.mem_cons.1 hinner with heq | hinner
  · subst heq
    exact h.contains_met (h.mem_met hlisted)
  · obtain ⟨source, hsource, heq⟩ := List.mem_map.1 hinner
    subst heq
    exact h.contains_met (h.mem_met_of_scanned hsource hlisted)

theorem Growth.size (h : Growth load registry loads registry') :
    registry'.size = registry.size + loads.length := by
  rw [Registry.size, h.documents, List.length_append, List.length_map]
  rfl

/-- Collecting ends, however the documents refer to each other, as long as all that can be loaded
refer to finitely many ids. It fails at a document that cannot be loaded; or else the registry grows
by the documents that were loaded, each id being loaded once and none that was registered, and then
has an entry for every document that one of them, or the first document, refers to. -/
theorem collectDocuments_grows {listed : List String}
    (hload : ∀ origin document, load origin = .ok document →
      document.referencedDocuments ⊆ listed)
    (document : Json) (folder : String) (registry : Registry) :
    ∃ result, (∃ enough, ∀ rounds, enough ≤ rounds →
        collectFrom load rounds folder document.referencedDocuments registry = result) ∧
      (∀ (files : Files) (remote : Option Remote), files.loadFrom remote = load →
        collectDocuments files document folder registry remote = result) ∧
      (∀ e, result = .error e → Fails load folder document.referencedDocuments registry e) ∧
      ∀ registry' loaded, result = .ok (registry', loaded) → ∃ met loads,
        Collects load folder document.referencedDocuments registry met
          (loads.map Loaded.source) registry' ∧
        Growth load registry loads registry' ∧ loads.length = loaded ∧
        registry'.size = registry.size + loaded ∧
        registry'.Closes (document :: loads.map (·.document)) := by
  obtain ⟨result, hsettles⟩ : ∃ result,
      Settles load folder document.referencedDocuments registry 0 result := by
    have hids : document.referencedDocuments ⊆ document.referencedDocuments ++ listed :=
      List.subset_append_left _ _
    refine ⟨_, settles_collectFrom ?_ hids (Nat.lt_succ_self _)⟩
    intro origin inner hinner
    exact List.Subset.trans (hload origin inner hinner) (List.subset_append_right _ _)
  refine ⟨result, hsettles.collectFrom, ?_, ?_, ?_⟩
  · intro files remote hfiles
    subst hfiles
    exact (settles_collectDocuments files remote document folder registry).unique hsettles
  · intro e he
    subst he
    cases hsettles with
    | fails hfails => exact hfails
  · intro registry' loaded hresult
    subst hresult
    cases hsettles with
    | @collects met _ _ hcollects =>
      obtain ⟨loads, hscanned, hgrowth⟩ := hcollects.exists_growth
      have hcloses := hcollects.closes
      rw [← hscanned, List.map_map] at hcloses
      refine ⟨met, loads, hscanned ▸ hcollects, hgrowth, ?_, ?_, hcloses⟩
      · rw [← hscanned, List.length_map, Nat.zero_add]
      · rw [hgrowth.size, ← hscanned, List.length_map, Nat.zero_add]

def ringFiles : Files where
  nodes := [
    (["a.json"], .file "\x7b\"allOf\": [\x7b\"$ref\": \"b.json\"\x7d]\x7d".toUTF8),
    (["b.json"], .file
      "\x7b\"allOf\": [\x7b\"$ref\": \"a.json\"\x7d, \x7b\"$ref\": \"b.json#\"\x7d]\x7d".toUTF8)]

def ringDocument : Json := .object [("$ref", .string "a.json")]

theorem collectDocuments_grows_ring : ∃ registry,
    collectDocuments ringFiles ringDocument "." {} = .ok (registry, 2) ∧ registry.size = 2 ∧
      ∃ loads : List Loaded, loads.length = 2 ∧ (loads.map (·.id)).Nodup ∧
        registry.Closes (ringDocument :: loads.map (·.document)) := by
  have hload (origin : Origin) (document : Json)
      (h : ringFiles.loadFrom none origin = .ok document) :
      document.referencedDocuments ⊆ ringFiles.linkedDocuments none :=
    Files.linkedDocuments_subset h
  have hcount : (collectDocuments ringFiles ringDocument "." {}).toOption.map (·.2) = some 2 := by
    decide +kernel
  obtain ⟨⟨registry, loaded⟩, hresult, hloaded⟩ := Option.map_eq_some_iff.1 hcount
  subst hloaded
  obtain ⟨result, _, hfiles, _, hgrows⟩ := collectDocuments_grows hload ringDocument "." {}
  have hcollected := eq_ok_of_toOption hresult
  obtain ⟨_, loads, _, hgrowth, hlength, hsize, hcloses⟩ :=
    hgrows registry _ ((hfiles ringFiles none rfl).symm.trans hcollected)
  exact ⟨registry, hcollected, hsize, loads, hlength, hgrowth.distinct, hcloses⟩

end SchemaCatalog
