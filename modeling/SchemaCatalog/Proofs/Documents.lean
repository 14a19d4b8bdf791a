import SchemaCatalog.Proofs.Steps
import SchemaCatalog.Compilation

namespace SchemaCatalog

namespace Registry

variable {registry : Registry} {id : String} {s : Schema}

theorem get?_register (h : registry.get? id = some s) (id' : String) (document : Schema) :
    (registry.register id' document).get? id = some s := by
  rw [register]
  split
  · exact h
  · rw [get?] at h ⊢
    rw [List.lookup_append, h]
    rfl

theorem get?_register_eq {id' : String} (hnew : registry.contains id' = false)
    (document : Schema) (id : String) : (registry.register id' document).get? id =
      (registry.get? id).or (if id' = id then some document else none) := by
  have hadd : registry.register id' document = ⟨registry.documents ++ [(id', document)]⟩ := by
    rw [register, if_neg (by simp [hnew])]
  rw [hadd, get?, List.lookup_append, Entries.lookup_cons]
  simp only [eq_comm, List.lookup_nil]
  rfl

theorem mem_register {e : String × Schema} {document : Schema}
    (h : e ∈ (registry.register id document).documents) :
    e ∈ registry.documents ∨ e = (id, document) := by
  rw [register] at h
  split at h
  · exact .inl h
  · exact (List.mem_append.1 h).imp_right List.mem_singleton.1

theorem mem_registerRoot {e : String × Schema} {root : Schema}
    (h : e ∈ (({} : Registry).registerRoot root).documents) : e.2 = root := by
  have hroot {registry : Registry}
      (h : e ∈ (registry.register Reference.rootDocument root).documents)
      (hthere : e ∈ registry.documents → e.2 = root) : e.2 = root := by
    cases mem_register h with
    | inl h => exact hthere h
    | inr h => rw [h]
  rw [registerRoot] at h
  refine hroot h fun h => ?_
  cases hid : root.keywords.id with
  | none =>
    rw [hid] at h
    cases h
  | some id =>
    rw [hid] at h
    cases mem_register h with
    | inl h => cases h
    | inr h => rw [h]

theorem mem_foldl_register {e : String × Schema} {documents : List (String × Schema)}
    (h : e ∈ (documents.foldl (fun registry (id, schema) => registry.register id schema)
      registry).documents) : e ∈ registry.documents ∨ e ∈ documents := by
  induction documents generalizing registry with
  | nil => exact .inl h
  | cons first rest ih =>
    cases ih h with
    | inr h => exact .inr (List.mem_cons_of_mem _ h)
    | inl h =>
      cases mem_register h with
      | inl h => exact .inl h
      | inr h => exact .inr (h ▸ List.mem_cons_self)

theorem root?_register_root (root : Schema) (h : ∀ s, registry.root? = some s → s = root) :
    (registry.register Reference.rootDocument root).root? = some root := by
  rw [register]
  split
  · rename_i hthere
    obtain ⟨s, hs⟩ := Option.isSome_iff_exists.1 hthere
    exact hs.trans (congrArg some (h s hs))
  · rename_i hnone
    have hlookup : registry.documents.lookup Reference.rootDocument = none :=
      Option.not_isSome_iff_eq_none.1 hnone
    rw [root?, get?, List.lookup_append, hlookup]
    rfl

theorem root?_registerRoot (root : Schema) :
    (({} : Registry).registerRoot root).root? = some root := by
  rw [registerRoot]
  refine root?_register_root root fun s hs => ?_
  cases hid : root.keywords.id with
  | none =>
    rw [hid] at hs
    cases hs
  | some id =>
    rw [hid] at hs
    have hentry : (⟨[(id, root)]⟩ : Registry).root? = some s := hs
    rw [root?, get?, Entries.lookup_cons] at hentry
    split at hentry
    · exact (Option.some.inj hentry).symm
    · cases hentry

theorem get?_registerRoot {root : Schema} (hid : id ≠ Reference.rootDocument) :
    (({} : Registry).registerRoot root).get? id =
      if root.keywords.id = some id then some root else none := by
  have hother {registry : Registry} :
      (registry.register Reference.rootDocument root).get? id = registry.get? id := by
    cases hknown : registry.contains Reference.rootDocument with
    | true => rw [register, if_pos hknown]
    | false => rw [get?_register_eq hknown, if_neg (Ne.symm hid), Option.or_none]
  rw [registerRoot, hother]
  cases root.keywords.id with
  | none => rfl
  | some declared =>
    rw [get?_register_eq rfl]
    simp [get?]

theorem get?_foldl_register (documents : List (String × Schema))
    (h : registry.get? id = some s) :
    (documents.foldl (fun registry (id, schema) => registry.register id schema) registry).get? id =
      some s := by
  induction documents generalizing registry with
  | nil => exact h
  | cons entry rest ih => exact ih (get?_register h entry.1 entry.2)

theorem resolve_local {root : Schema} {r : String} (hlocal : (Reference.parse r).document = "")
    (hroot : registry.root? = some root) :
    registry.resolve r = .ok s ↔ pointee? root (Reference.parse r).segments = some s := by
  have hid : documentOf (Reference.parse r) = Reference.rootDocument := by
    rw [documentOf, Reference.isLocal, hlocal]
    rfl
  have hget : registry.get? Reference.rootDocument = some root := hroot
  simp only [resolve, hid, hget]
  cases pointee? root (Reference.parse r).segments with
  | none => simp
  | some s' => simp

end Registry

def collectStep (load : Origin → Outcome Json) (fuel : Nat) (folder : String) :
    Registry × Nat → String → Outcome (Registry × Nat) :=
  fun (registry, loaded) id => do
    if registry.contains id then return (registry, loaded)
    let (origin, inner) := locateDocument folder id
    let document ← load origin
    let root ← rootSchema (Dialect.detect document) document
    let (registry, more) ←
      collectFrom load fuel inner document.referencedDocuments (registry.register id root)
    return (registry, loaded + 1 + more)

section

variable {load : Origin → Outcome Json} {fuel loaded : Nat} {folder id : String}
  {registry : Registry} {result : Registry × Nat}

theorem collectFrom_succ (ids : List String) (registry : Registry) :
    collectFrom load (fuel + 1) folder ids registry =
      ids.foldlM (collectStep load fuel folder) (registry, 0) := rfl

theorem collectStep_known (hknown : registry.contains id = true) :
    collectStep load fuel folder (registry, loaded) id = .ok (registry, loaded) := by
  simp only [collectStep, hknown, if_true]
  rfl

theorem collectStep_loads (hnew : registry.contains id = false)
    (h : collectStep load fuel folder (registry, loaded) id = .ok result) :
    ∃ document root registry' more, load (locateDocument folder id).1 = .ok document ∧
      rootSchema (Dialect.detect document) document = .ok root ∧
      collectFrom load fuel (locateDocument folder id).2 document.referencedDocuments
        (registry.register id root) = .ok (registry', more) ∧
      result = (registry', loaded + 1 + more) := by
  simp only [collectStep, hnew, Bool.false_eq_true, if_false] at h
  obtain ⟨document, hdocument, h⟩ := bind_eq_ok h
  obtain ⟨root, hroot, h⟩ := bind_eq_ok h
  obtain ⟨⟨registry', more⟩, hmore, h⟩ := bind_eq_ok h
  cases h
  exact ⟨document, root, registry', more, hdocument, hroot, hmore, rfl⟩

/-- Loading documents replaces none. -/
theorem get?_collectFrom {ids : List String} {s : Schema}
    (h : collectFrom load fuel folder ids registry = .ok result)
    (hid : registry.get? id = some s) : result.1.get? id = some s := by
  induction fuel generalizing folder ids registry result with
  | zero =>
    cases h
    exact hid
  | succ fuel ih =>
    rw [collectFrom_succ] at h
    refine foldlM_invariant (P := fun (b : Registry × Nat) => b.1.get? id = some s) ?_ hid h
    intro b id' b' hb hstep
    obtain ⟨registry, loaded⟩ := b
    cases hknown : registry.contains id' with
    | true =>
      cases (collectStep_known hknown).symm.trans hstep
      exact hb
    | false =>
      obtain ⟨document, root, registry', more, _, _, hmore, heq⟩ := collectStep_loads hknown hstep
      subst heq
      have hkept : registry'.get? id = some s := ih hmore (Registry.get?_register hb id' root)
      exact hkept

end

theorem Setup.root?_registry {setup : Setup} {document : Json} {dialect : Dialect}
    {registry : Registry} {root : Schema} (h : setup.registry document dialect = .ok registry)
    (hroot : rootSchema dialect document = .ok root) : registry.root? = some root := by
  have hbase := Registry.get?_foldl_register setup.documents (Registry.root?_registerRoot root)
  obtain ⟨root', hroot', hread⟩ := bind_eq_ok (eq_ok_of_checked h)
  cases hroot.symm.trans hroot'
  cases hfolder : setup.folder with
  | none =>
    rw [hfolder] at hread
    cases hread
    exact hbase
  | some folder =>
    rw [hfolder] at hread
    obtain ⟨⟨collected, count⟩, hcollect, heq⟩ := bind_eq_ok hread
    cases heq
    exact get?_collectFrom hcollect hbase

end SchemaCatalog
