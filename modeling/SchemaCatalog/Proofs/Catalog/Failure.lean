import SchemaCatalog.Proofs.Catalog.Ending
import SchemaCatalog.Proofs.Qualification
import SchemaCatalog.Compilation

namespace SchemaCatalog

theorem Registry.registerRoot_eq {root : Schema} (h : root.keywords.id = none) :
    ({} : Registry).registerRoot root = ⟨[(Reference.rootDocument, root)]⟩ := by
  rw [registerRoot, h]
  rfl

theorem Registry.pointee?_cases {document s : Schema} {segments : List String}
    (h : pointee? document segments = some s) :
    s = document ∨ ∃ place key, document.under? place key = some s := by
  unfold pointee? at h
  split at h
  · exact .inl (Option.some.inj h).symm
  · exact .inl (Option.some.inj h).symm
  · exact .inr ⟨.definitions, _, h⟩
  · exact .inr ⟨.definitions, _, h⟩
  · exact .inr ⟨.properties, _, h⟩
  · exact .inr ⟨.definitions, _, h⟩
  · cases h

/-- Where there is but one document, references denote the document or an entry of a table. -/
theorem Registry.resolve_alone {root s : Schema} {r : String}
    (h : (⟨[(Reference.rootDocument, root)]⟩ : Registry).resolve r = .ok s) :
    (Reference.parse r).document = "" ∧
      (s = root ∨ ∃ place key, root.under? place key = some s) := by
  unfold resolve at h
  dsimp only at h
  split at h
  · cases h
  · rename_i document hdocument
    have hid : documentOf (Reference.parse r) = Reference.rootDocument ∧ root = document := by
      rw [get?, Entries.lookup_cons] at hdocument
      split at hdocument
      · rename_i hid
        exact ⟨hid, Option.some.inj hdocument⟩
      · cases hdocument
    obtain ⟨hid, heq⟩ := hid
    subst heq
    split at h
    · rename_i schema hpointee
      cases h
      refine ⟨?_, pointee?_cases hpointee⟩
      rw [documentOf] at hid
      split at hid
      · rename_i hlocal
        simpa [Reference.isLocal] using hlocal
      · exact absurd hid (Reference.document_ne_rootDocument r)
    · cases h

theorem Scope.Stays.resolves {scope : Scope} {r : String} (hkept : scope.options.kept = [])
    (h : scope.Stays r) : ∃ s, scope.registry.resolve r = .ok s := by
  obtain ⟨inlinable, h⟩ : ∃ inlinable, scope.isInlinable r = .ok inlinable := by
    rcases h with h | ⟨h, _⟩
    · exact ⟨_, h⟩
    · exact ⟨_, h⟩
  have hnotKept : scope.options.isKept r = false := by
    rw [Options.isKept, hkept]
    rfl
  rw [isInlinable, hnotKept] at h
  obtain ⟨s, hs, _⟩ := bind_eq_ok h
  exact ⟨s, hs⟩

namespace Builder

open Schema

variable {b : Builder} {root normal : Schema}

/-- Where the root has a normal form, so have the targets of all references that stay. -/
theorem leads_alone (hregistry : b.scope.registry = ⟨[(Reference.rootDocument, root)]⟩)
    (hkept : b.scope.options.kept = []) (hnormal : root.normalize b.scope = .ok normal) :
    Leads b b.scope.Stays fun _ => False := by
  have htarget {r : String} (hr : b.scope.Stays r) : ∃ s, b.scope.registry.expand r = .ok s ∧
      ∃ t, s.normalize b.scope = .ok t := by
    obtain ⟨s, hs⟩ := hr.resolves hkept
    obtain ⟨hlocal, hplace⟩ := Registry.resolve_alone (hregistry ▸ hs)
    refine ⟨s, Registry.expand_local hlocal hs, ?_⟩
    rcases hplace with heq | ⟨place, key, hentry⟩
    · exact ⟨normal, heq ▸ hnormal⟩
    · obtain ⟨t, ht, _⟩ := entry_normalize hnormal hentry
      exact ⟨t, ht⟩
  refine ⟨fun hr he => ?_, fun hr hs he => ?_, fun _ _ ht => normalize_stays ht⟩
  · obtain ⟨s, hs, _⟩ := htarget hr
    cases (Outcome.at_of_ok hs _).symm.trans he
  · obtain ⟨s', hs', t, ht⟩ := htarget hr
    cases hs.symm.trans hs'
    cases (Outcome.at_of_ok ht _).symm.trans he

variable {Q : String → Prop} {p : Progress}

theorem ensures_request_waiting (b : Builder) {r : Request} (hr : r.schema.Inside Q)
    (hp : Waiting Q p) : Ensures (request r) p (fun _ p' => Waiting Q p') fun _ => False := by
  have hadvances : Ensures (request r) p (fun _ p' => b.Advances Q [] r.schema.cost p p')
      fun _ => False :=
    advances_request hr p
  refine hadvances.mono (fun _ p' hp' => ?_) fun _ he => he
  obtain ⟨new, hnew, hinside, _⟩ := hp'.pending
  intro r' hr'
  rw [hnew] at hr'
  exact (List.mem_append.1 hr').elim (hp r') (hinside r')

theorem ensures_requestDefinitions_waiting {definitions : List (String × Schema)}
    (hdefinitions : ∀ key s, (key, s) ∈ definitions → s.Inside Q) (hp : Waiting Q p) :
    Ensures (b.requestDefinitions definitions) p (fun _ p' => Waiting Q p') fun _ => False := by
  induction definitions generalizing p with
  | nil => exact ensures_pure hp
  | cons entry rest ih =>
    obtain ⟨key, s⟩ := entry
    apply ensures_bind (ensures_request_waiting b (hdefinitions key s List.mem_cons_self) hp)
    exact fun _ p' hp' => ih (fun key s hs => hdefinitions key s (List.mem_cons_of_mem _ hs)) hp'

end Builder

namespace Setup

open Builder

/-- Building from a normal form fails only where following a reference does, if the document has no
operations. -/
theorem ensures_build_ends {b : Builder} {bad : CatalogError → Prop} {Q : String → Prop}
    {normal : Schema} (hleads : Leads b Q bad) (hnormal : normal.Inside Q) (document : Json) :
    Ensures (build b document .jsonSchema normal) {} (fun _ _ => True) bad := by
  have hdefinitions (key : String) (s : Schema) (hs : (key, s) ∈ normal.definitions.getD []) :
      s.Inside Q := by
    obtain ⟨table, htable, hmem⟩ := mem_getD_nil hs
    exact hnormal.child (.definition htable hmem)
  have hrest {p : Progress} (hp : Waiting Q p) : Ensures (do
      b.requestDefinitions (normal.definitions.getD [])
      b.drain
      if Dialect.jsonSchema.hasOperations then
        let _ ← Operation.addMethods b document .jsonSchema
        b.drain) p (fun _ _ => True) bad := by
    apply ensures_bind ((ensures_requestDefinitions_waiting hdefinitions hp).mono
      (fun _ _ h => h) fun _ he => he.elim)
    intro _ p₁ hp₁
    apply ensures_bind ((completes_drain hleads hp₁).mono (fun _ _ h => h) fun _ he => he.1)
    exact fun _ _ _ => ensures_pure trivial
  have hstart : Waiting Q {} := nofun
  unfold build
  dsimp only
  by_cases hroot : (Dialect.jsonSchema == .jsonSchema && describesValue normal) = true
  · rw [if_pos hroot]
    apply ensures_bind ((ensures_request_waiting b hnormal hstart).mono
      (fun _ _ h => h) fun _ he => he.elim)
    exact fun _ _ hp => hrest hp
  · rw [if_neg hroot]
    exact hrest hstart

theorem registry_alone {setup : Setup} {document : Json} {registry : Registry}
    (hid : ∀ root, readSchema document = .ok root → root.keywords.id = none)
    (hdocuments : setup.documents = []) (hfolder : setup.folder = none)
    (h : setup.registry document .jsonSchema = .ok registry) :
    ∃ root, readSchema document = .ok root ∧ registry = ⟨[(Reference.rootDocument, root)]⟩ := by
  rw [Setup.registry, hdocuments, hfolder] at h
  obtain ⟨root, hroot, hregistry⟩ := bind_eq_ok (eq_ok_of_checked h)
  refine ⟨root, hroot, ?_⟩
  rw [← Registry.registerRoot_eq (hid root hroot)]
  exact (Except.ok.inj hregistry).symm

theorem compile_eq (setup : Setup) (document : Json) : setup.compile document = (do
    let scope ← setup.scope document (Dialect.detect document)
    let normal ← setup.normalize document
    let (_, progress) ←
      (build (.new scope) document (Dialect.detect document) normal).run {}
    return ⟨progress.catalog, progress.diagnostics, Dialect.detect document⟩) := by
  unfold compile normalize
  dsimp only
  cases hscope : setup.scope document (Dialect.detect document) with
  | error e => simp only [bind, Except.bind]
  | ok scope =>
    cases hroot : rootSchema (Dialect.detect document) document with
    | error e => simp only [bind, Except.bind]
    | ok root => simp only [bind, Except.bind]

theorem compile_error {setup : Setup} {document : Json} {e : CatalogError}
    (h : setup.normalize document = .error e) : setup.compile document = .error e := by
  rw [compile_eq, h]
  cases hscope : setup.scope document (Dialect.detect document) with
  | ok scope => rfl
  | error e' =>
    unfold normalize at h
    dsimp only at h
    rw [hscope] at h
    cases h
    rfl

/-- Where a document that stands alone has a normal form, building does not fail. -/
theorem exists_compile {setup : Setup} {document : Json} {normal : Schema}
    (hdialect : Dialect.detect document = .jsonSchema)
    (hid : ∀ root, readSchema document = .ok root → root.keywords.id = none)
    (hdocuments : setup.documents = []) (hfolder : setup.folder = none)
    (hkept : setup.options.kept = []) (hnormal : setup.normalize document = .ok normal) :
    ∃ c, setup.compile document = .ok c := by
  have hstages := hnormal
  unfold normalize at hstages
  obtain ⟨scope, hscope, hstages⟩ := bind_eq_ok hstages
  obtain ⟨root, hroot, hstages⟩ := bind_eq_ok hstages
  obtain ⟨registry, hregistry, heq⟩ := bind_eq_ok hscope
  cases heq
  rw [hdialect] at hroot hregistry hscope
  obtain ⟨root', hroot', halone⟩ := registry_alone hid hdocuments hfolder hregistry
  cases hroot.symm.trans hroot'
  subst halone
  have hleads : Leads (.new ⟨⟨[(Reference.rootDocument, root)]⟩, setup.options⟩) _ fun _ => False :=
    leads_alone rfl hkept hstages
  rcases (ensures_build_ends hleads (Schema.normalize_stays hstages) document).cases with
    ⟨_, progress, hrun, _⟩ | ⟨_, _, habsurd⟩
  · refine ⟨⟨progress.catalog, progress.diagnostics, .jsonSchema⟩, ?_⟩
    rw [compile_eq, hnormal, hdialect, hscope]
    change (build _ document .jsonSchema normal).run {} = .ok _ at hrun
    simp only [bind, Except.bind, hrun]
    rfl
  · exact habsurd.elim

/-- A document that is a schema by itself, declares no id and stands alone compiles if and only if
it has a normal form, and otherwise both fail with the same error. -/
theorem compile_ok_iff {setup : Setup} {document : Json}
    (hdialect : Dialect.detect document = .jsonSchema)
    (hid : ∀ root, readSchema document = .ok root → root.keywords.id = none)
    (hdocuments : setup.documents = []) (hfolder : setup.folder = none)
    (hkept : setup.options.kept = []) :
    ((∃ c, setup.compile document = .ok c) ↔ ∃ normal, setup.normalize document = .ok normal) ∧
      ∀ e, setup.compile document = .error e ↔ setup.normalize document = .error e := by
  have hbuilds {normal : Schema} (hnormal : setup.normalize document = .ok normal) :
      ∃ c, setup.compile document = .ok c :=
    exists_compile hdialect hid hdocuments hfolder hkept hnormal
  refine ⟨⟨fun h => ?_, fun h => ?_⟩, fun e => ⟨fun h => ?_, compile_error⟩⟩
  · obtain ⟨c, hc⟩ := h
    cases hnormal : setup.normalize document with
    | ok normal => exact ⟨normal, rfl⟩
    | error e => cases hc.symm.trans (compile_error hnormal)
  · obtain ⟨normal, hnormal⟩ := h
    exact hbuilds hnormal
  · cases hnormal : setup.normalize document with
    | ok normal =>
      obtain ⟨c, hc⟩ := hbuilds hnormal
      cases hc.symm.trans h
    | error e' => exact congrArg _ (Except.error.inj ((compile_error hnormal).symm.trans h))

def chainedNodes : Json :=
  .object [("type", .string "object"),
    ("properties", .object [
      ("label", .object [("$ref", .string "#/definitions/Label")]),
      ("next", .object [("$ref", .string "#")])]),
    ("definitions", .object [("Label", .object [("type", .string "string")])])]

theorem compile_ok_chainedNodes :
    Dialect.detect chainedNodes = .jsonSchema ∧ ∃ c, compile {} chainedNodes = .ok c := by
  have hid : (readSchema chainedNodes).toOption.map (·.keywords.id) = some none := by
    decide +kernel
  have hnormal : (normalize {} chainedNodes).toOption.isSome = true := by
    decide +kernel
  have hdialect : Dialect.detect chainedNodes = .jsonSchema := by
    decide +kernel
  refine ⟨hdialect, (compile_ok_iff hdialect (fun root hroot => ?_) rfl rfl rfl).1.2 ?_⟩
  · rw [hroot] at hid
    exact Option.some.inj hid
  · obtain ⟨normal, h⟩ := Option.isSome_iff_exists.1 hnormal
    exact ⟨normal, eq_ok_of_toOption h⟩

end Setup

end SchemaCatalog
