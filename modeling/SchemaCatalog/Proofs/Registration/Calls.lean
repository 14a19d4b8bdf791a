import SchemaCatalog.Proofs.Registration
import SchemaCatalog.Proofs.Resolution
import SchemaCatalog.Proofs.Schema.Algebra

namespace SchemaCatalog.Registry

open Reference

/-- A registration: of a document, or of a root document. -/
inductive Call where
  | document (id : String) (s : Schema)
  | root (s : Schema)

namespace Call

def run (registry : Registry) : Call → Registry
  | .document id s => registry.register id s
  | .root s => registry.registerRoot s

/-- The entries that a call registers, in order, as far as their ids are not taken. -/
def offers : Call → Entries Schema
  | .document id s => [(id, s)]
  | .root s => (s.keywords.id.toList ++ [rootDocument]).map fun id => (id, s)

end Call

def registerAll (registry : Registry) (calls : List Call) : Registry :=
  calls.foldl Call.run registry

variable {registry registry' : Registry} {text : String} {s : Schema}

theorem documents_register (registry : Registry) (id : String) (s : Schema) :
    (registry.register id s).documents = registry.documents.addMissing [(id, s)] := by
  have hcontains : registry.contains id = registry.documents.has id := rfl
  rw [register, hcontains, Entries.addMissing_cons]
  cases registry.documents.has id <;> rfl

theorem documents_run (registry : Registry) (call : Call) :
    (call.run registry).documents = registry.documents.addMissing call.offers := by
  cases call with
  | document id s => exact documents_register registry id s
  | root s =>
    rw [Call.run, registerRoot, Call.offers]
    cases s.keywords.id with
    | none => exact documents_register registry rootDocument s
    | some id =>
      rw [documents_register, documents_register, ← Entries.addMissing_append]
      rfl

theorem documents_registerAll (registry : Registry) (calls : List Call) :
    (registry.registerAll calls).documents =
      registry.documents.addMissing (calls.flatMap Call.offers) := by
  induction calls generalizing registry with
  | nil => rfl
  | cons call rest ih =>
    have hrest : registry.registerAll (call :: rest) = (call.run registry).registerAll rest := rfl
    rw [hrest, ih, documents_run, List.flatMap_cons, Entries.addMissing_append]

theorem Call.registers (registry : Registry) (call : Call) :
    Registers registry (call.run registry) := by
  cases call with
  | document id s => exact .document registry id s
  | root s => exact .root registry s

theorem grows_registerAll (registry : Registry) (calls : List Call) :
    Grows registry (registry.registerAll calls) := by
  induction calls generalizing registry with
  | nil => exact .refl
  | cons call rest ih => exact .head (call.registers registry) (ih _)

theorem Grows.resolve (h : Grows registry registry') (hs : registry.resolve text = .ok s) :
    registry'.resolve text = .ok s := by
  cases hdocument : registry.get? (documentOf (parse text)) with
  | none =>
    rw [resolve_unknown hdocument] at hs
    cases hs
  | some document =>
    rw [resolve_eq_ok_iff hdocument] at hs
    exact (resolve_eq_ok_iff (h.get? hdocument)).2 hs

/-- After any calls each id has the document that was first registered under it, and the ids stand
in the order of their first registration, those of before at the front; and every reference that
resolved before resolves to the same schema. -/
theorem registerAll_keeps (registry : Registry) (calls : List Call) :
    (∀ text s, registry.resolve text = .ok s →
      (registry.registerAll calls).resolve text = .ok s) ∧
    (∀ id, (registry.registerAll calls).get? id =
      (registry.documents ++ calls.flatMap Call.offers).lookup id) ∧
    (registry.registerAll calls).ids = registry.ids ++
      (Entries.keys (calls.flatMap Call.offers)).eraseDups.filter (!registry.ids.contains ·) ∧
    (registerAll {} calls).ids = (Entries.keys (calls.flatMap Call.offers)).eraseDups := by
  have hids (registry : Registry) : (registry.registerAll calls).ids = registry.ids ++
      (Entries.keys (calls.flatMap Call.offers)).eraseDups.filter (!registry.ids.contains ·) := by
    rw [ids, documents_registerAll, Entries.keys_addMissing, appendNew_eq]
    rfl
  refine ⟨fun _ _ hs => (grows_registerAll registry calls).resolve hs, ?_, hids registry, ?_⟩
  · intro id
    rw [get?, documents_registerAll, Entries.lookup_addMissing_eq, List.lookup_append]
  · rw [hids]
    exact List.filter_eq_self.2 fun _ _ => rfl

/-- A root that declares the id of a root: what came before it under its ids stays. -/
example : (registerAll {} [.document "b" (.ofType "string"), .root (declaring "a"),
    .root (declaring "#"), .root (declaring "b"), .document "a" {}]).ids = ["b", "a", "#"] := by
  decide +kernel

end SchemaCatalog.Registry
