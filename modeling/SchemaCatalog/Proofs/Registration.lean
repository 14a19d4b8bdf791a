import Mathlib.Logic.Relation
import SchemaCatalog.Proofs.Documents
import SchemaCatalog.Proofs.Qualification

namespace SchemaCatalog.Registry

open Reference

variable {registry registry' : Registry} {id base : String} {root s : Schema}

/-- One call registers a document, or a root document. -/
inductive Registers : Registry → Registry → Prop
  | document (registry : Registry) (id : String) (s : Schema) :
      Registers registry (registry.register id s)
  | root (registry : Registry) (s : Schema) : Registers registry (registry.registerRoot s)

/-- Any number of documents are registered, one call after another. -/
def Grows : Registry → Registry → Prop := Relation.ReflTransGen Registers

theorem Registers.get? (h : Registers registry registry') (hid : registry.get? id = some s) :
    registry'.get? id = some s := by
  cases h with
  | document id' s' => exact get?_register hid id' s'
  | root root =>
    rw [registerRoot]
    apply get?_register
    cases root.keywords.id with
    | none => exact hid
    | some declared => exact get?_register hid declared root

theorem Grows.get? (h : Grows registry registry') (hid : registry.get? id = some s) :
    registry'.get? id = some s := by
  induction h with
  | refl => exact hid
  | tail _ hcall ih => exact hcall.get? ih

def absolute (base pointer : String) : String := base ++ "#" ++ pointer

theorem head_local (pointer : String) : ("#" ++ pointer).toList.head? = some '#' := by
  rw [String.toList_append]
  rfl

theorem resolve_absolute_eq (hbase : Names base) (registry : Registry) (pointer : String) :
    (registry.resolve (absolute base pointer)).toOption =
      registry.denoted? base ("#" ++ pointer) := by
  rw [← resolve_qualify_of_open hbase (head_local pointer),
    qualify_of_open hbase (head_local pointer), absolute, String.append_assoc]

theorem resolve_local_eq (registry : Registry) (pointer : String) :
    (registry.resolve ("#" ++ pointer)).toOption =
      registry.denoted? rootDocument ("#" ++ pointer) := by
  have hlocal : (parse ("#" ++ pointer)).isLocal = true := isLocal_iff.2 (.inr (head_local pointer))
  rw [toOption_resolve, documentOf, if_pos hlocal]

theorem denoted?_whole (registry : Registry) (document : String) :
    registry.denoted? document "#" = registry.get? document := by
  rw [denoted?]
  cases registry.get? document with
  | none => rfl
  | some root => rfl

theorem forall_resolve_absolute_iff (hbase : Names base) (hroot : registry.root? = some root) :
    (∀ pointer, (registry.resolve (absolute base pointer)).toOption =
      (registry.resolve ("#" ++ pointer)).toOption) ↔ registry.get? base = some root := by
  simp only [resolve_absolute_eq hbase, resolve_local_eq]
  constructor
  · intro h
    -- the empty pointer denotes the whole document
    have hwhole := h ""
    rw [String.append_empty, denoted?_whole, denoted?_whole] at hwhole
    exact hwhole.trans hroot
  · intro h pointer
    have hsame : registry.get? base = registry.get? rootDocument := h.trans hroot.symm
    rw [denoted?, denoted?, hsame]

theorem resolve_absolute_unknown (hbase : Names base) (hnone : registry.get? base = none)
    (pointer : String) : registry.resolve (absolute base pointer) =
      .error (.unknownDocument base (absolute base pointer)) := by
  have hparse : (parse (absolute base pointer)).document = base := by
    rw [absolute, String.append_assoc, parse_append hbase (head_local pointer)]
  have hdocument : documentOf (parse (absolute base pointer)) = base := by
    rw [documentOf, if_neg, hparse]
    rw [isLocal, hparse]
    simpa [String.isEmpty_iff] using hbase.ne_empty
  simp only [resolve, hdocument, hnone]

/-- References that begin with the id that the root declares, the root being registered first,
denote pointer by pointer what the local ones do. If the declared id has a `#` at its end, those
that begin with what stands before it denote nothing, until a document is registered under that
text. -/
theorem resolve_absolute (hbase : Names base) (hgrows : Grows (registerRoot {} root) registry) :
    ((∀ pointer, (registry.resolve (absolute base pointer)).toOption =
        (registry.resolve ("#" ++ pointer)).toOption) ↔
      root.keywords.id = some base ∨ registry.get? base = some root) ∧
    (root.keywords.id = some (base ++ "#") → (registerRoot {} root).get? base = none) ∧
    (registry.get? base = none → ∀ pointer, registry.resolve (absolute base pointer) =
      .error (.unknownDocument base (absolute base pointer))) := by
  have hne : base ≠ rootDocument := by
    intro heq
    exact hbase.unended (heq ▸ List.mem_singleton_self '#')
  have hfirst : (registerRoot {} root).get? base =
      if root.keywords.id = some base then some root else none := get?_registerRoot hne
  have hroot : registry.root? = some root := hgrows.get? (root?_registerRoot root)
  refine ⟨?_, ?_, resolve_absolute_unknown hbase⟩
  · rw [forall_resolve_absolute_iff hbase hroot, iff_or_self]
    intro hdeclared
    apply hgrows.get?
    rw [hfirst, if_pos hdeclared]
  · intro hended
    rw [hfirst, if_neg]
    intro hdeclared
    have heq : base ++ "#" = base := Option.some.inj (hended.symm.trans hdeclared)
    apply hbase.unended
    rw [← heq, String.toList_append]
    exact List.mem_append_right _ (List.mem_singleton_self '#')

def declaring (id : String) : Schema where
  keywords := { id := some id }
  definitions := some [("A", .ofType "string")]

def splitRoot : Registry :=
  (registerRoot {} (declaring "root.json#")).register "root.json" (.ofType "integer")

theorem resolve_absolute_declaring :
    Names "root.json" ∧
      (∀ pointer, ((registerRoot {} (declaring "root.json")).resolve
        (absolute "root.json" pointer)).toOption =
          ((registerRoot {} (declaring "root.json")).resolve ("#" ++ pointer)).toOption) ∧
      ¬ ∀ pointer, (splitRoot.resolve (absolute "root.json" pointer)).toOption =
        (splitRoot.resolve ("#" ++ pointer)).toOption := by
  have hnames : Names "root.json" := ⟨by decide, by decide⟩
  have hgrows : Grows (registerRoot {} (declaring "root.json#")) splitRoot :=
    .single (.document _ "root.json" (.ofType "integer"))
  have hrest : splitRoot.get? "root.json" ≠ some (declaring "root.json#") := by
    intro heq
    have hid := congrArg (Option.map (·.keywords.id)) heq
    exact absurd hid (by decide +kernel)
  refine ⟨hnames, (resolve_absolute hnames .refl).1.2 (.inl rfl), ?_⟩
  rw [(resolve_absolute hnames hgrows).1]
  rintro (hid | heq)
  · exact absurd hid (by decide)
  · exact hrest heq

/-- With a `#` at the end of its id the document has a definition that no absolute reference
denotes. -/
theorem exists_resolve_absolute_ne : ∃ (root : Schema) (base pointer : String),
    Names base ∧ root.keywords.id = some (base ++ "#") ∧
      (((registerRoot {} root).resolve ("#" ++ pointer)).toOption.bind Schema.typeName?) =
        some "string" ∧
      ((registerRoot {} root).resolve (absolute base pointer)).toOption = none := by
  have hnone : (registerRoot {} (declaring "root.json#")).get? "root.json" = none := by
    decide +kernel
  refine ⟨declaring "root.json#", "root.json", "/definitions/A", ⟨by decide, by decide⟩,
    by decide, by decide +kernel, ?_⟩
  rw [resolve_absolute_unknown ⟨by decide, by decide⟩ hnone]
  rfl

end SchemaCatalog.Registry
