import SchemaCatalog.Proofs.Catalog.Offers
import Mathlib.Data.List.Nodup

namespace SchemaCatalog

namespace Catalog

variable {c : Catalog} {types : List CatalogType}

/-- The types that are turned down when types are offered in order, since their names are taken. -/
def rejected (c : Catalog) : List CatalogType → List CatalogType
  | [] => []
  | type :: rest =>
    if c.hasType type.name then type :: rejected (c.addType type) rest
    else rejected (c.addType type) rest

theorem typeNames_addType_of_free {type : CatalogType} (h : ¬ c.hasType type.name = true) :
    (c.addType type).typeNames = c.typeNames ++ [type.name] := by
  rw [addType, if_neg h, typeNames, List.map_append]
  rfl

theorem hasType_iff_mem {name : String} : c.hasType name = true ↔ name ∈ c.typeNames := by
  rw [hasType_iff, typeNames, List.mem_map]

/-- Nothing is turned down exactly if all names are distinct. -/
theorem rejected_eq_nil_iff (h : c.typeNames.Nodup) :
    c.rejected types = [] ↔ (c.typeNames ++ types.map (·.name)).Nodup := by
  induction types generalizing c with
  | nil => simpa [rejected] using h
  | cons type rest ih =>
    rw [rejected, List.map_cons]
    by_cases htype : c.hasType type.name = true
    · rw [if_pos htype]
      have hmem := hasType_iff_mem.1 htype
      refine ⟨fun hnil => (List.cons_ne_nil _ _ hnil).elim, fun hnodup => ?_⟩
      exact ((List.nodup_append.1 hnodup).2.2 _ hmem _ List.mem_cons_self rfl).elim
    · rw [if_neg htype, ih (nodup_addType h), typeNames_addType_of_free htype, List.append_assoc]
      rfl

theorem mem_of_rejected {type : CatalogType} (h : type ∈ c.rejected types) : type ∈ types := by
  induction types generalizing c with
  | nil => exact h
  | cons first rest ih =>
    rw [rejected] at h
    split at h
    · rcases List.mem_cons.1 h with heq | hrest
      · exact heq ▸ List.mem_cons_self
      · exact List.mem_cons_of_mem _ (ih hrest)
    · exact List.mem_cons_of_mem _ (ih h)

/-- The name of a type that is turned down was taken before or is offered twice. -/
theorem count_of_rejected {type : CatalogType} (h : type ∈ c.rejected types) :
    type.name ∈ c.typeNames ∨ 2 ≤ (types.map (·.name)).count type.name := by
  induction types generalizing c with
  | nil => cases h
  | cons first rest ih =>
    rw [rejected] at h
    rw [List.map_cons, List.count_cons]
    by_cases hfirst : c.hasType first.name = true
    · rw [if_pos hfirst] at h
      have hsame : c.addType first = c := if_pos hfirst
      rcases List.mem_cons.1 h with heq | hrest
      · exact .inl (heq ▸ hasType_iff_mem.1 hfirst)
      · rw [hsame] at hrest
        exact (ih hrest).imp_right fun hcount => hcount.trans (Nat.le_add_right _ _)
    · rw [if_neg hfirst] at h
      rcases ih h with hthere | hcount
      · rw [typeNames_addType_of_free hfirst] at hthere
        rcases List.mem_append.1 hthere with hthere | heq
        · exact .inl hthere
        · -- once for the first type and once for this one
          have hmem := List.mem_map_of_mem (f := (·.name)) (mem_of_rejected h)
          have hpos := List.count_pos_iff.2 hmem
          rw [List.mem_singleton.1 heq] at hpos ⊢
          rw [if_pos (beq_self_eq_true _)]
          exact .inr (Nat.succ_le_succ hpos)
      · exact .inr (hcount.trans (Nat.le_add_right _ _))

theorem rejected_empty_iff :
    ({} : Catalog).rejected types = [] ↔ (types.map (·.name)).Nodup := by
  have hempty : ({} : Catalog).typeNames = [] := rfl
  rw [rejected_eq_nil_iff (hempty ▸ List.nodup_nil), hempty, List.nil_append]

theorem hasType_offerAll {name : String} : (Builder.offerAll c types).hasType name = true ↔
    c.hasType name = true ∨ name ∈ types.map (·.name) := by
  induction types generalizing c with
  | nil => simp [Builder.offerAll]
  | cons type rest ih =>
    rw [Builder.offerAll, List.foldl_cons, List.map_cons, List.mem_cons, ← or_assoc,
      ← hasType_addType]
    exact ih

theorem mem_offerAll_or_rejected {type : CatalogType} (h : type ∈ types) :
    type ∈ (Builder.offerAll c types).types ∨ type ∈ c.rejected types := by
  induction types generalizing c with
  | nil => cases h
  | cons first rest ih =>
    rw [rejected, Builder.offerAll, List.foldl_cons]
    rcases List.mem_cons.1 h with heq | hrest
    · subst heq
      by_cases htype : c.hasType type.name = true
      · rw [if_pos htype]
        exact .inr List.mem_cons_self
      · have hadded : type ∈ (c.addType type).types := by
          rw [addType, if_neg htype]
          exact List.mem_append_right _ (List.mem_singleton_self type)
        exact .inl (types_prefix_offerAll.subset hadded)
    · refine (ih hrest).imp_right fun hlater => ?_
      split
      · exact List.mem_cons_of_mem _ hlater
      · exact hlater

end Catalog

namespace Setup

variable {setup : Setup} {document : Json} {c : Compilation}

namespace Course

variable (course : setup.Course document c)

/-- The types that the catalog turns down in the course of the compilation. -/
def rejected : List CatalogType := ({} : Catalog).rejected course.offered

theorem perm_names_offered : (course.offered.map (·.name)).Perm
    (course.progress.requested.keys ++ c.catalog.methods.flatMap Method.typeNames) := by
  rw [← course.names_built, course.methods, offered]
  simp only [List.map_append, List.map_map, List.append_assoc]
  exact List.perm_append_comm.append_left _

/-- Nothing is turned down exactly if the requested names and those of the operations' types are all
distinct. -/
theorem rejected_eq_nil_iff : course.rejected = [] ↔
    (course.progress.requested.keys ++ c.catalog.methods.flatMap Method.typeNames).Nodup :=
  Catalog.rejected_empty_iff.trans course.perm_names_offered.nodup_iff

theorem rejected_built : ({} : Catalog).rejected (course.built.map Prod.snd) = [] := by
  have hkeys := course.distinct
  rw [← course.names_built, List.map_append] at hkeys
  rw [Catalog.rejected_empty_iff, List.map_map]
  exact (List.nodup_append.1 hkeys).1

theorem name_of_rejected {type : CatalogType} (h : type ∈ course.rejected) :
    type.name ∈ c.catalog.methods.flatMap Method.typeNames := by
  rcases Catalog.count_of_rejected h with hnone | htwice
  · cases hnone
  · -- at most one of the offers is for a request
    rw [course.perm_names_offered.count_eq, List.count_append] at htwice
    have honce := List.nodup_iff_count_le_one.1 course.distinct type.name
    exact List.count_pos_iff.1 (by omega)

theorem mem_types_or_rejected {type : CatalogType} (h : type ∈ course.offered) :
    type ∈ c.catalog.types ∨ type ∈ course.rejected := by
  rw [course.types]
  exact Catalog.mem_offerAll_or_rejected h

theorem name_of_offered {type : CatalogType} (h : type ∈ course.offered) :
    ∃ kept ∈ c.catalog.types, kept.name = type.name := by
  rw [course.types]
  exact Catalog.hasType_iff.1 (Catalog.hasType_offerAll.2 (.inr (List.mem_map_of_mem h)))

end Course

/-- A type that is offered is in the catalog or turned down. It is turned down only if its name is
one of an operation's own types: a method of the catalog names the type that has the name instead.
Nothing is turned down before the operations are seen to, and nothing at all exactly if the
requested names and those of the operations' types are all distinct. -/
theorem compile_rejected (h : setup.compile document = .ok c) :
    Nonempty (setup.Course document c) ∧ ∀ course : setup.Course document c,
      c.catalog.types = (Builder.offerAll {} course.offered).types ∧
      (∀ type ∈ course.offered, type ∈ c.catalog.types ∨ type ∈ course.rejected) ∧
      (∀ type ∈ course.rejected,
        (∃ m ∈ c.catalog.methods, type.name ∈ m.typeNames) ∧
          ∃ kept ∈ c.catalog.types, kept.name = type.name) ∧
      ({} : Catalog).rejected (course.built.map Prod.snd) = [] ∧
      (course.rejected = [] ↔
        (course.progress.requested.keys ++ c.catalog.methods.flatMap Method.typeNames).Nodup) := by
  refine ⟨compile_course h, fun course => ⟨course.types, fun type htype => ?_,
    fun type htype => ⟨?_, ?_⟩, course.rejected_built, course.rejected_eq_nil_iff⟩⟩
  · exact course.mem_types_or_rejected htype
  · exact List.mem_flatMap.1 (course.name_of_rejected htype)
  · exact course.name_of_offered (Catalog.mem_of_rejected htype)

def twinOperations : Json :=
  .object [("swagger", .string "2.0"),
    ("paths", .object [
      ("/pets", .object [("get", .object [("operationId", .string "listPets"),
        ("parameters", .array [.object [("name", .string "limit"), ("in", .string "query"),
          ("type", .string "integer")]])])]),
      ("/animals", .object [("get", .object [("operationId", .string "list_pets"),
        ("parameters", .array [.object [("name", .string "color"), ("in", .string "query"),
          ("type", .string "string")]])])])])]

theorem compile_twinOperations : ∃ c, compile {} twinOperations = .ok c ∧ c.diagnostics = [] ∧
    c.catalog.methods.flatMap Method.typeNames = ["ListPetsParameters", "ListPetsParameters"] := by
  have hresult : (compile {} twinOperations).toOption.map (fun c =>
      (c.diagnostics, c.catalog.methods.flatMap Method.typeNames)) =
      some ([], ["ListPetsParameters", "ListPetsParameters"]) := by
    decide +kernel
  obtain ⟨c, hc, heq⟩ := Option.map_eq_some_iff.1 hresult
  exact ⟨c, eq_ok_of_toOption hc, congrArg Prod.fst heq, congrArg Prod.snd heq⟩

theorem compile_rejected_twinOperations :
    ∃ c, compile {} twinOperations = .ok c ∧ ∃ course : Course {} twinOperations c,
      course.rejected ≠ [] ∧
        ∀ type ∈ course.rejected, ∃ m ∈ c.catalog.methods, type.name ∈ m.typeNames := by
  obtain ⟨c, hc, _, hnames⟩ := compile_twinOperations
  obtain ⟨⟨course⟩, hcourse⟩ := compile_rejected hc
  obtain ⟨_, _, hrejected, _, hnone⟩ := hcourse course
  refine ⟨c, hc, course, fun h => ?_, fun type htype => (hrejected type htype).1⟩
  have hnodup := hnone.1 h
  rw [hnames] at hnodup
  exact absurd (List.nodup_append.1 hnodup).2.1 (by decide)

/-- The catalog can turn down a type without a remark. -/
theorem exists_rejected_unremarked : ¬ ∀ {setup : Setup} {document : Json} {c : Compilation}
    (course : setup.Course document c), ∀ type ∈ course.rejected,
      ∃ d ∈ c.diagnostics, d.Collides type.name := by
  intro hclaim
  obtain ⟨c, hc, hdiagnostics, hnames⟩ := compile_twinOperations
  obtain ⟨course⟩ := compile_course hc
  have hsome : course.rejected ≠ [] := fun h => by
    have hnodup := course.rejected_eq_nil_iff.1 h
    rw [hnames] at hnodup
    exact absurd (List.nodup_append.1 hnodup).2.1 (by decide)
  obtain ⟨type, htype⟩ := List.exists_mem_of_ne_nil _ hsome
  obtain ⟨d, hd, _⟩ := hclaim course type htype
  rw [hdiagnostics] at hd
  cases hd

end Setup

end SchemaCatalog
