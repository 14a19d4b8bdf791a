import SchemaCatalog.Proofs.Documents
import SchemaCatalog.Proofs.Documents.Reading
import SchemaCatalog.Proofs.Qualification

namespace SchemaCatalog

/-- The id of a document, met in a document of a folder. -/
structure Mention where
  folder : String
  id : String

/-- A document that is scanned, with the folder for its references. -/
structure Source where
  document : Json
  folder : String

/-- The root schema of the document that an id stands for in a folder. -/
def schemaIn (load : Origin → Outcome Json) (folder id : String) : Outcome Schema := do
  let document ← load (locateDocument folder id).1
  rootSchema (Dialect.detect document) document

/-- How the documents of a list of ids are collected, those that they refer to included. `met` lists
the ids that are met on the way, in order, and `scanned` the documents that are loaded. -/
inductive Collects (load : Origin → Outcome Json) :
    String → List String → Registry → List Mention → List Source → Registry → Prop
  | done {folder : String} {registry : Registry} : Collects load folder [] registry [] [] registry
  | known {folder id : String} {ids : List String} {registry registry' : Registry}
    {met : List Mention} {scanned : List Source} : registry.contains id = true →
    Collects load folder ids registry met scanned registry' →
    Collects load folder (id :: ids) registry (⟨folder, id⟩ :: met) scanned registry'
  | loads {folder id : String} {ids : List String} {registry registry₁ registry' : Registry}
    {document : Json} {root : Schema} {met met' : List Mention} {scanned scanned' : List Source} :
    registry.contains id = false → load (locateDocument folder id).1 = .ok document →
    rootSchema (Dialect.detect document) document = .ok root →
    Collects load (locateDocument folder id).2 document.referencedDocuments
      (registry.register id root) met scanned registry₁ →
    Collects load folder ids registry₁ met' scanned' registry' →
    Collects load folder (id :: ids) registry (⟨folder, id⟩ :: (met ++ met'))
      (⟨document, (locateDocument folder id).2⟩ :: (scanned ++ scanned')) registry'

/-- The folder of the document in which an id is met first. -/
def firstFolder? (met : List Mention) (id : String) : Option String :=
  (met.find? (·.id == id)).map (·.folder)

theorem firstFolder?_cons (folder id' : String) (met : List Mention) (id : String) :
    firstFolder? (⟨folder, id'⟩ :: met) id =
      if id' = id then some folder else firstFolder? met id := by
  rw [firstFolder?, List.find?_cons]
  by_cases h : id' = id
  · rw [if_pos h, beq_iff_eq.2 h]
    rfl
  · rw [if_neg h, beq_false_of_ne h]
    rfl

theorem mem_of_firstFolder? {met : List Mention} {id first : String}
    (h : firstFolder? met id = some first) : ⟨first, id⟩ ∈ met := by
  obtain ⟨m, hm, hfolder⟩ := Option.map_eq_some_iff.1 h
  have hid : (m.id == id) = true := List.find?_some (p := fun m : Mention => m.id == id) hm
  subst hfolder
  exact beq_iff_eq.1 hid ▸ List.mem_of_find?_eq_some hm

theorem firstFolder?_append (met met' : List Mention) (id : String) :
    firstFolder? (met ++ met') id = (firstFolder? met id).or (firstFolder? met' id) := by
  rw [firstFolder?, List.find?_append, Option.map_or]
  rfl

variable {load : Origin → Outcome Json} {folder : String} {ids : List String}
  {registry registry' : Registry} {met : List Mention} {scanned : List Source}

theorem Collects.get?_of_some {id : String} {s : Schema}
    (h : Collects load folder ids registry met scanned registry')
    (hid : registry.get? id = some s) : registry'.get? id = some s := by
  induction h with
  | done => exact hid
  | known _ _ ih => exact ih hid
  | loads _ _ _ _ _ ih ih' => exact ih' (ih (Registry.get?_register hid _ _))

theorem Collects.contains {id : String}
    (h : Collects load folder ids registry met scanned registry')
    (hid : registry.contains id = true) : registry'.contains id = true := by
  obtain ⟨s, hs⟩ := Option.isSome_iff_exists.1 hid
  exact Option.isSome_iff_exists.2 ⟨s, h.get?_of_some hs⟩

/-- Every id that is met is registered in the end. -/
theorem Collects.contains_met (h : Collects load folder ids registry met scanned registry')
    {m : Mention} (hm : m ∈ met) : registry'.contains m.id = true := by
  induction h with
  | done => cases hm
  | known hknown hrest ih =>
    cases hm with
    | head => exact hrest.contains hknown
    | tail _ hm => exact ih hm
  | loads hnew _ _ hinner hrest ih ih' =>
    cases hm with
    | head =>
      refine hrest.contains (hinner.contains ?_)
      rw [Registry.contains, Registry.get?_register_eq hnew, if_pos rfl, Option.isSome_or]
      exact Bool.or_true _
    | tail _ hm =>
      rcases List.mem_append.1 hm with hm | hm
      · exact hrest.contains (ih hm)
      · exact ih' hm

/-- What is registered in the end under an id: what was there, or else the document that the id
stands for in the folder where it is met first. -/
theorem Collects.get? (h : Collects load folder ids registry met scanned registry') (id : String) :
    registry'.get? id = (registry.get? id).or
      ((firstFolder? met id).bind fun first => (schemaIn load first id).toOption) := by
  induction h with
  | done => simp [firstFolder?]
  | @known folder id' ids registry registry' met scanned hknown _ ih =>
    rw [ih, firstFolder?_cons]
    by_cases hid : id' = id
    · subst hid
      obtain ⟨s, hs⟩ := Option.isSome_iff_exists.1 hknown
      rw [hs, Option.some_or, Option.some_or]
    · rw [if_neg hid]
  | @loads folder id' ids registry registry₁ registry' document root met met' scanned scanned'
      hnew hload hroot hinner hrest ih ih' =>
    by_cases hid : id' = id
    · subst hid
      have hschema : schemaIn load folder id' = .ok root := by
        rw [schemaIn, hload]
        exact hroot
      have hnone : registry.get? id' = none := by
        simpa [Registry.contains] using hnew
      have hregistered : (registry.register id' root).get? id' = some root := by
        rw [Registry.get?_register_eq hnew, if_pos rfl, hnone, Option.none_or]
      rw [hrest.get?_of_some (hinner.get?_of_some hregistered), hnone, Option.none_or,
        firstFolder?_cons, if_pos rfl, Option.bind_some, hschema]
      rfl
    · rw [Registry.get?_register_eq hnew, if_neg hid, Option.or_none] at ih
      rw [firstFolder?_cons, if_neg hid, firstFolder?_append]
      cases hfirst : firstFolder? met id with
      | none =>
        rw [hfirst, Option.bind_none, Option.or_none] at ih
        rw [ih', ih, Option.none_or]
      | some first =>
        -- what is met among the documents loaded here is registered before the others are loaded
        have hmet := hinner.contains_met (mem_of_firstFolder? hfirst)
        obtain ⟨s, hs⟩ := Option.isSome_iff_exists.1 hmet
        rw [Option.some_or, ← hfirst, ← ih, hs, hrest.get?_of_some hs]

theorem Collects.mem_met (h : Collects load folder ids registry met scanned registry') {id : String}
    (hid : id ∈ ids) : ⟨folder, id⟩ ∈ met := by
  induction h with
  | done => cases hid
  | known _ _ ih =>
    cases hid with
    | head => exact List.mem_cons_self
    | tail _ hid => exact List.mem_cons_of_mem _ (ih hid)
  | loads _ _ _ _ _ _ ih' =>
    cases hid with
    | head => exact List.mem_cons_self
    | tail _ hid => exact List.mem_cons_of_mem _ (List.mem_append_right _ (ih' hid))

theorem Collects.mem_met_of_scanned (h : Collects load folder ids registry met scanned registry')
    {source : Source} (hsource : source ∈ scanned) {id : String}
    (hid : id ∈ source.document.referencedDocuments) : ⟨source.folder, id⟩ ∈ met := by
  induction h with
  | done => cases hsource
  | known _ _ ih => exact List.mem_cons_of_mem _ (ih hsource)
  | loads _ _ _ hinner _ ih ih' =>
    refine List.mem_cons_of_mem _ (List.mem_append.2 ?_)
    cases hsource with
    | head => exact .inl (hinner.mem_met hid)
    | tail _ hsource => exact (List.mem_append.1 hsource).imp ih ih'

namespace Registry

def unregistered (registry : Registry) (ids : List String) : Nat :=
  ids.countP fun id => !registry.contains id

theorem unregistered_le (h : ∀ id, registry.contains id = true → registry'.contains id = true) :
    registry'.unregistered ids ≤ registry.unregistered ids := by
  refine List.countP_mono_left fun id _ hid => ?_
  have hlater := h id
  grind

theorem unregistered_register_lt {id : String} (hnew : registry.contains id = false)
    (hid : id ∈ ids) (document : Schema) :
    (registry.register id document).unregistered ids < registry.unregistered ids := by
  have hcontains (other : String) : (registry.register id document).contains other =
      (registry.contains other || decide (id = other)) := by
    rw [contains, get?_register_eq hnew, Option.isSome_or, contains]
    by_cases heq : id = other
    · simp [heq]
    · simp [heq]
  refine countP_lt_of_mem (a := id) (fun other hother => ?_) hid ?_ ?_
  · rw [hcontains] at hother
    grind
  · simp [hnew]
  · simp [hcontains]

end Registry

/-- How collecting fails: at the first document that cannot be loaded or has no root schema. -/
inductive Fails (load : Origin → Outcome Json) :
    String → List String → Registry → CatalogError → Prop
  | known {folder id : String} {ids : List String} {registry : Registry} {e : CatalogError} :
    registry.contains id = true → Fails load folder ids registry e →
    Fails load folder (id :: ids) registry e
  | here {folder id : String} {ids : List String} {registry : Registry} {e : CatalogError} :
    registry.contains id = false → schemaIn load folder id = .error e →
    Fails load folder (id :: ids) registry e
  | within {folder id : String} {ids : List String} {registry : Registry} {document : Json}
    {root : Schema} {e : CatalogError} :
    registry.contains id = false → load (locateDocument folder id).1 = .ok document →
    rootSchema (Dialect.detect document) document = .ok root →
    Fails load (locateDocument folder id).2 document.referencedDocuments
      (registry.register id root) e →
    Fails load folder (id :: ids) registry e
  | later {folder id : String} {ids : List String} {registry registry₁ : Registry}
    {document : Json} {root : Schema} {met : List Mention} {scanned : List Source}
    {e : CatalogError} :
    registry.contains id = false → load (locateDocument folder id).1 = .ok document →
    rootSchema (Dialect.detect document) document = .ok root →
    Collects load (locateDocument folder id).2 document.referencedDocuments
      (registry.register id root) met scanned registry₁ →
    Fails load folder ids registry₁ e → Fails load folder (id :: ids) registry e

/-- How collecting ends, `loaded` documents having been counted before. -/
inductive Settles (load : Origin → Outcome Json) (folder : String) (ids : List String)
    (registry : Registry) (loaded : Nat) : Outcome (Registry × Nat) → Prop
  | collects {met : List Mention} {scanned : List Source} {registry' : Registry} :
    Collects load folder ids registry met scanned registry' →
    Settles load folder ids registry loaded (.ok (registry', loaded + scanned.length))
  | fails {e : CatalogError} : Fails load folder ids registry e →
    Settles load folder ids registry loaded (.error e)

theorem length_scanned (loaded : Nat) (source : Source) (inner later : List Source) :
    loaded + 1 + inner.length + later.length = loaded + (source :: (inner ++ later)).length := by
  rw [List.length_cons, List.length_append]
  omega

section

variable {fuel loaded : Nat} {id : String} {document : Json} {root : Schema}
  {result : Outcome (Registry × Nat)}

theorem Settles.known (hknown : registry.contains id = true)
    (h : Settles load folder ids registry loaded result) :
    Settles load folder (id :: ids) registry loaded result := by
  cases h with
  | collects h => exact .collects (.known hknown h)
  | fails h => exact .fails (.known hknown h)

theorem Settles.loads (hnew : registry.contains id = false)
    (hload : load (locateDocument folder id).1 = .ok document)
    (hroot : rootSchema (Dialect.detect document) document = .ok root)
    (hinner : Collects load (locateDocument folder id).2 document.referencedDocuments
      (registry.register id root) met scanned registry')
    (h : Settles load folder ids registry' (loaded + 1 + scanned.length) result) :
    Settles load folder (id :: ids) registry loaded result := by
  cases h with
  | fails h => exact .fails (.later hnew hload hroot hinner h)
  | collects h =>
    rw [length_scanned loaded ⟨document, (locateDocument folder id).2⟩]
    exact .collects (.loads hnew hload hroot hinner h)

theorem collectStep_fails {e : CatalogError} (hnew : registry.contains id = false)
    (h : schemaIn load folder id = .error e) :
    collectStep load fuel folder (registry, loaded) id = .error e := by
  simp only [collectStep, hnew, Bool.false_eq_true, if_false]
  rw [schemaIn] at h
  cases hload : load (locateDocument folder id).1 with
  | error e' =>
    rw [hload] at h
    cases h
    rfl
  | ok document =>
    rw [hload] at h
    change rootSchema (Dialect.detect document) document = .error e at h
    change (rootSchema (Dialect.detect document) document >>= _) = _
    rw [h]
    rfl

theorem collectStep_new (hnew : registry.contains id = false)
    (hload : load (locateDocument folder id).1 = .ok document)
    (hroot : rootSchema (Dialect.detect document) document = .ok root) :
    collectStep load fuel folder (registry, loaded) id =
      (collectFrom load fuel (locateDocument folder id).2 document.referencedDocuments
        (registry.register id root)).map fun result => (result.1, loaded + 1 + result.2) := by
  simp only [collectStep, hnew, Bool.false_eq_true, if_false, hload]
  change (rootSchema (Dialect.detect document) document >>= _) = _
  rw [hroot]
  rfl

/-- Where the collecting for each document that is loaded settles, so does that for a list. -/
theorem settles_foldlM {listed : List String}
    (hinner : ∀ (origin : Origin) (folder : String) (document : Json) (registry : Registry),
      load origin = .ok document → registry.unregistered listed < fuel →
      Settles load folder document.referencedDocuments registry 0
        (collectFrom load fuel folder document.referencedDocuments registry))
    (hids : ids ⊆ listed) (hfuel : registry.unregistered listed < fuel + 1) :
    Settles load folder ids registry loaded
      (ids.foldlM (collectStep load fuel folder) (registry, loaded)) := by
  induction ids generalizing registry loaded with
  | nil => exact .collects .done
  | cons id rest ih =>
    rw [List.foldlM_cons]
    have hrest : rest ⊆ listed := fun _ hmem => hids (List.mem_cons_of_mem _ hmem)
    cases hknown : registry.contains id with
    | true =>
      rw [collectStep_known hknown]
      exact .known hknown (ih hrest hfuel)
    | false =>
      cases hschema : schemaIn load folder id with
      | error e =>
        rw [collectStep_fails hknown hschema]
        exact .fails (.here hknown hschema)
      | ok root =>
        obtain ⟨document, hdocument, hroot⟩ := bind_eq_ok hschema
        rw [collectStep_new hknown hdocument hroot]
        -- the new document takes one id off those that the fuel is measured by
        have hless := Registry.unregistered_register_lt hknown (hids List.mem_cons_self) root
        have hsettles := hinner _ (locateDocument folder id).2 document _ hdocument
          (Nat.lt_of_lt_of_le hless (Nat.le_of_lt_succ hfuel))
        generalize collectFrom load fuel (locateDocument folder id).2
          document.referencedDocuments (registry.register id root) = outcome at hsettles ⊢
        cases hsettles with
        | fails hfails => exact .fails (.within hknown hdocument hroot hfails)
        | @collects met scanned registry₁ hcollects =>
          have hle : registry₁.unregistered listed ≤
              (registry.register id root).unregistered listed :=
            Registry.unregistered_le fun _ => hcollects.contains
          apply Settles.loads hknown hdocument hroot hcollects
          rw [Nat.zero_add]
          exact ih hrest (Nat.lt_of_le_of_lt hle (Nat.lt_trans hless hfuel))

/-- Rounds that outnumber the ids without a document suffice for collecting to settle, as each of
them registers one. -/
theorem settles_collectFrom {listed : List String}
    (hload : ∀ origin document, load origin = .ok document →
      document.referencedDocuments ⊆ listed)
    (hids : ids ⊆ listed) (hfuel : registry.unregistered listed < fuel) :
    Settles load folder ids registry 0 (collectFrom load fuel folder ids registry) := by
  induction fuel generalizing folder ids registry with
  | zero => exact absurd hfuel (Nat.not_lt_zero _)
  | succ fuel ih =>
    rw [collectFrom_succ]
    apply settles_foldlM _ hids hfuel
    intro origin folder document registry hdocument hless
    exact ih (hload origin document hdocument) hless

end

theorem settles_collectDocuments (files : Files) (remote : Option Remote) (document : Json)
    (folder : String) (registry : Registry) :
    Settles (files.loadFrom remote) folder document.referencedDocuments registry 0
      (collectDocuments files document folder registry remote) := by
  have hload (origin : Origin) (inner : Json) (h : files.loadFrom remote origin = .ok inner) :
      inner.referencedDocuments ⊆ document.referencedDocuments ++ files.linkedDocuments remote :=
    List.Subset.trans (Files.linkedDocuments_subset h) (List.subset_append_right _ _)
  have hrounds :
      registry.unregistered (document.referencedDocuments ++ files.linkedDocuments remote) <
        document.referencedDocuments.length + (files.linkedDocuments remote).length + 1 := by
    rw [← List.length_append]
    exact Nat.lt_succ_of_le List.countP_le_length
  exact settles_collectFrom hload (List.subset_append_left _ _) hrounds

theorem collectDocuments_collects {files : Files} {remote : Option Remote} {document : Json}
    {result : Registry × Nat}
    (h : collectDocuments files document folder registry remote = .ok result) :
    ∃ met scanned, Collects (files.loadFrom remote) folder document.referencedDocuments registry met
      scanned result.1 ∧ result.2 = scanned.length := by
  have hsettles := settles_collectDocuments files remote document folder registry
  rw [h] at hsettles
  cases hsettles with
  | collects hcollects => exact ⟨_, _, hcollects, Nat.zero_add _⟩

theorem mem_referencedDocuments {document : Json} {text : String}
    (h : text ∈ document.references) (hid : (Reference.parse text).document ≠ "") :
    (Reference.parse text).document ∈ document.referencedDocuments := by
  refine List.mem_eraseDups.2 (List.mem_filter.2 ⟨List.mem_map_of_mem h, ?_⟩)
  simpa [String.isEmpty_iff] using hid

theorem locateDocument_remote {id : String} (h : isRemote id = true) (folder folder' : String) :
    (locateDocument folder id).1 = (locateDocument folder' id).1 := by
  rw [locateDocument, locateDocument, if_pos h, if_pos h]

/-- What the registry holds under an id that a scanned document refers to, if it held only the root
before: the root, if that declares the id, or else the document that the id stands for in the folder
where it is met first. That is the document which it stands for in the folder of the reference
itself, if both folders lead to one place, as they do for the address of a remote document. -/
theorem collectDocuments_get? {files : Files} {remote : Option Remote} {document : Json}
    {folder : String} {root : Schema} {registry : Registry} {loaded : Nat}
    (h : collectDocuments files document folder (({} : Registry).registerRoot root) remote =
      .ok (registry, loaded)) :
    ∃ met scanned, Collects (files.loadFrom remote) folder document.referencedDocuments
        (({} : Registry).registerRoot root) met scanned registry ∧
      ∀ source ∈ (⟨document, folder⟩ : Source) :: scanned, ∀ text ∈ source.document.references,
        ∀ id, (Reference.parse text).document = id → id ≠ "" →
          (root.keywords.id = some id → registry.get? id = some root) ∧
          (root.keywords.id ≠ some id → ∃ first s, firstFolder? met id = some first ∧
            schemaIn (files.loadFrom remote) first id = .ok s ∧ registry.get? id = some s ∧
            ((locateDocument first id).1 = (locateDocument source.folder id).1 →
              schemaIn (files.loadFrom remote) source.folder id = .ok s)) := by
  obtain ⟨met, scanned, hcollects, _⟩ := collectDocuments_collects h
  refine ⟨met, scanned, hcollects, ?_⟩
  intro source hsource text htext id hid hne
  subst hid
  have hmet : ⟨source.folder, (Reference.parse text).document⟩ ∈ met := by
    have hlisted := mem_referencedDocuments htext hne
    cases hsource with
    | head => exact hcollects.mem_met hlisted
    | tail _ hsource => exact hcollects.mem_met_of_scanned hsource hlisted
  have hget := hcollects.get? (Reference.parse text).document
  rw [Registry.get?_registerRoot (Reference.document_ne_rootDocument text)] at hget
  constructor
  · intro hdeclared
    rw [hget, if_pos hdeclared, Option.some_or]
  · intro hdeclared
    rw [if_neg hdeclared, Option.none_or] at hget
    obtain ⟨s, hs⟩ := Option.isSome_iff_exists.1 (hcollects.contains_met hmet)
    obtain ⟨first, hfirst, hschema⟩ := Option.bind_eq_some_iff.1 (hget.symm.trans hs)
    refine ⟨first, s, hfirst, eq_ok_of_toOption hschema, hs, fun hpath => ?_⟩
    have hok := eq_ok_of_toOption hschema
    rw [schemaIn, hpath] at hok
    exact hok

/-- A document with an id that is that of a file as well. It refers to a file in a folder, which in
turn refers to its neighbour, and to a file with the name of that neighbour. -/
def twinsDocument : Json :=
  .object [("id", .string "z.json"), ("allOf", .array [
    .object [("$ref", .string "s/x.json")],
    .object [("$ref", .string "y.json")],
    .object [("$ref", .string "z.json")]])]

def twinsRoot : Schema where
  keywords := { id := some "z.json" }
  allOf := some [.ofReference "s/x.json", .ofReference "y.json", .ofReference "z.json"]

def twinsFiles : Files where
  nodes := [
    (["s"], .folder),
    (["s", "x.json"], .file "\x7b\"items\": \x7b\"$ref\": \"y.json\"\x7d\x7d".toUTF8),
    (["s", "y.json"], .file "\x7b\"title\": \"inner\"\x7d".toUTF8),
    (["y.json"], .file "\x7b\"title\": \"outer\"\x7d".toUTF8),
    (["z.json"], .file "\x7b\"title\": \"other\"\x7d".toUTF8)]

def moneyRemote : Remote where
  fetch address :=
    if address = "https://example.com/money.json" then
      .ok "\x7b\"title\": \"money\", \"items\": \x7b\"$ref\": \"y.json\"\x7d\x7d"
    else .error (.fileNotFound address)
  addresses := ["https://example.com/money.json"]
  answers_listed := by
    intro address body h
    split at h
    · rename_i haddress
      exact List.mem_singleton.2 haddress
    · cases h

def pricedDocument : Json :=
  .object [("id", .string "z.json"), ("allOf", .array [
    .object [("$ref", .string "https://example.com/money.json")],
    .object [("$ref", .string "s/x.json")],
    .object [("$ref", .string "z.json")]])]

def pricedRoot : Schema where
  keywords := { id := some "z.json" }
  allOf := some [.ofReference "https://example.com/money.json", .ofReference "s/x.json",
    .ofReference "z.json"]

theorem collectDocuments_get?_priced :
    rootSchema (Dialect.detect pricedDocument) pricedDocument = .ok pricedRoot ∧
    ∃ registry loaded met scanned,
      collectDocuments twinsFiles pricedDocument "." (({} : Registry).registerRoot pricedRoot)
        (some moneyRemote) = .ok (registry, loaded) ∧
      Collects (twinsFiles.loadFrom (some moneyRemote)) "." pricedDocument.referencedDocuments
        (({} : Registry).registerRoot pricedRoot) met scanned registry ∧
      registry.get? "z.json" = some pricedRoot ∧
      ∃ s, registry.get? "https://example.com/money.json" = some s ∧
        s.keywords.title = some "money" ∧
        schemaIn (twinsFiles.loadFrom (some moneyRemote)) "." "https://example.com/money.json" =
          .ok s := by
  have htitle : (collectDocuments twinsFiles pricedDocument "."
      (({} : Registry).registerRoot pricedRoot) (some moneyRemote)).toOption.map (fun result =>
        (result.1.get? "https://example.com/money.json").bind (·.keywords.title)) =
          some (some "money") := by
    decide +kernel
  obtain ⟨⟨registry, loaded⟩, hresult, hmoney⟩ := Option.map_eq_some_iff.1 htitle
  have hcollect := eq_ok_of_toOption hresult
  obtain ⟨met, scanned, hcollects, hentries⟩ := collectDocuments_get? hcollect
  have hreferences : "https://example.com/money.json" ∈ pricedDocument.references ∧
      "z.json" ∈ pricedDocument.references := by
    decide +kernel
  have hroot := (hentries _ List.mem_cons_self "z.json" hreferences.2 "z.json" (by decide)
    (by decide)).1 rfl
  obtain ⟨first, s, _, _, hget, hsame⟩ := (hentries _ List.mem_cons_self _ hreferences.1
    "https://example.com/money.json" (by decide) (by decide)).2 (by decide)
  refine ⟨rfl, registry, loaded, met, scanned, hcollect, hcollects, hroot, s, hget, ?_, ?_⟩
  · rw [hget] at hmoney
    exact hmoney
  · exact hsame (locateDocument_remote (by decide) _ _)

/-- There are documents that are not registered under what a scanned document calls them: the file
of that name in its folder is another. One was met before from another folder, and one is the
root. -/
theorem exists_get?_ne_schemaIn : ∃ registry loaded,
    rootSchema (Dialect.detect twinsDocument) twinsDocument = .ok twinsRoot ∧
    collectDocuments twinsFiles twinsDocument "." (({} : Registry).registerRoot twinsRoot) none =
      .ok (registry, loaded) ∧
    "y.json" ∈ twinsDocument.references ∧ "z.json" ∈ twinsDocument.references ∧
    isRemote "y.json" = false ∧ isRemote "z.json" = false ∧
    registry.get? "y.json" ≠ (schemaIn (twinsFiles.loadFrom none) "." "y.json").toOption ∧
    registry.get? "z.json" ≠ (schemaIn (twinsFiles.loadFrom none) "." "z.json").toOption := by
  have htitles : (collectDocuments twinsFiles twinsDocument "."
      (({} : Registry).registerRoot twinsRoot) none).toOption.map (fun result =>
        ((result.1.get? "y.json").bind (·.keywords.title),
          (result.1.get? "z.json").bind (·.keywords.title))) = some (some "inner", none) := by
    decide +kernel
  have hown :
      (schemaIn (twinsFiles.loadFrom none) "." "y.json").toOption.bind (·.keywords.title) =
          some "outer" ∧
        (schemaIn (twinsFiles.loadFrom none) "." "z.json").toOption.bind (·.keywords.title) =
          some "other" := by
    decide +kernel
  obtain ⟨⟨registry, loaded⟩, hresult, htitle⟩ := Option.map_eq_some_iff.1 htitles
  obtain ⟨hinner, hroot⟩ := Prod.mk.inj htitle
  refine ⟨registry, loaded, rfl, eq_ok_of_toOption hresult, by decide +kernel, by decide +kernel,
    by decide, by decide, fun heq => ?_, fun heq => ?_⟩
  · rw [heq, hown.1] at hinner
    exact absurd hinner (by decide)
  · rw [heq, hown.2] at hroot
    exact absurd hroot (by decide)

end SchemaCatalog
