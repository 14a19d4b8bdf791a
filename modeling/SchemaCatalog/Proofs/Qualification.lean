import SchemaCatalog.Registry
import Mathlib.Data.List.TakeWhile

namespace SchemaCatalog

namespace Reference

variable {text document : String}

theorem isLocal_iff : (parse text).isLocal = true ↔ text = "" ∨ text.toList.head? = some '#' := by
  have hlist : text = "" ↔ text.toList = [] := by
    rw [← String.toList_inj]
    exact Iff.rfl
  rw [hlist, isLocal, parse, String.isEmpty_iff, ← String.toList_inj, String.toList_ofList]
  cases text.toList with
  | nil => simp
  | cons c rest =>
    by_cases hc : c = '#'
    · simp [hc]
    · simp [hc]

theorem hash_not_mem_document (text : String) : '#' ∉ (parse text).document.toList := by
  rw [parse, String.toList_ofList]
  intro hhash
  simpa using List.mem_takeWhile_imp hhash

theorem document_ne_rootDocument (text : String) : (parse text).document ≠ rootDocument := by
  intro heq
  exact hash_not_mem_document text (heq ▸ List.mem_singleton_self '#')

theorem qualify_of_closed (h : text.toList.head? ≠ some '#') (document : String) :
    qualify text document = text := by
  have hclosed : (text.toList.head? == some '#') = false := beq_false_of_ne h
  simp only [qualify, hclosed, Bool.not_false, Bool.or_true, if_true]

/-- The id of a document that references can name: it is not empty and no `#` ends it early. -/
structure Names (document : String) : Prop where
  ne_empty : document ≠ ""
  unended : '#' ∉ document.toList

theorem qualify_of_open (hdocument : Names document) (h : text.toList.head? = some '#') :
    qualify text document = document ++ text := by
  have hne : document ≠ rootDocument := by
    intro heq
    exact hdocument.unended (heq ▸ List.mem_singleton_self '#')
  have hopen : (text.toList.head? == some '#') = true := beq_iff_eq.2 h
  have hempty : document.isEmpty = false := by
    simpa [String.isEmpty_iff] using hdocument.ne_empty
  simp [qualify, hopen, hempty, hne]

theorem parse_append (hdocument : Names document) (h : text.toList.head? = some '#') :
    parse (document ++ text) = ⟨document, (parse text).pointer⟩ := by
  have hall : ∀ c ∈ document.toList, (c != '#') = true :=
    fun c hc => bne_iff_ne.2 fun heq => hdocument.unended (heq ▸ hc)
  obtain ⟨rest, hrest⟩ : ∃ rest, text.toList = '#' :: rest := List.head?_eq_some_iff.1 h
  simp only [parse, String.toList_append, List.takeWhile_append_of_pos hall,
    List.dropWhile_append_of_pos hall, hrest]
  simp

theorem qualify_qualify (hdocument : Names document) (text other : String) :
    qualify (qualify text document) other = qualify text document := by
  by_cases hopen : text.toList.head? = some '#'
  · rw [qualify_of_open hdocument hopen]
    apply qualify_of_closed
    obtain ⟨c, rest, hlist⟩ : ∃ c rest, document.toList = c :: rest := by
      refine List.exists_cons_of_ne_nil fun hnil => hdocument.ne_empty ?_
      exact String.toList_inj.1 hnil
    have hc : c ≠ '#' := fun heq => hdocument.unended (by simp [hlist, heq])
    simpa [String.toList_append, hlist] using hc
  · rw [qualify_of_closed hopen, qualify_of_closed hopen]

end Reference

namespace Registry

open Reference

variable {registry : Registry} {text document : String}

/-- What the pointer of a reference denotes in a document. -/
def denoted? (registry : Registry) (document text : String) : Option Schema :=
  (registry.get? document).bind fun root => pointee? root (parse text).segments

theorem toOption_resolve (registry : Registry) (text : String) :
    (registry.resolve text).toOption = registry.denoted? (documentOf (parse text)) text := by
  rw [resolve, denoted?]
  cases registry.get? (documentOf (parse text)) with
  | none => rfl
  | some root =>
    dsimp only [Option.bind_some]
    cases pointee? root (parse text).segments with
    | none => rfl
    | some s => rfl

theorem resolve_qualify_of_open (hdocument : Names document)
    (hopen : text.toList.head? = some '#') :
    (registry.resolve (qualify text document)).toOption = registry.denoted? document text := by
  have hparse := parse_append hdocument hopen
  have houtside : documentOf (parse (document ++ text)) = document := by
    rw [hparse, documentOf, isLocal, if_neg]
    simpa [String.isEmpty_iff] using hdocument.ne_empty
  rw [qualify_of_open hdocument hopen, toOption_resolve, houtside, denoted?, denoted?, segments,
    segments, hparse]

theorem resolve_qualify_empty (registry : Registry) (document : String) :
    (registry.resolve (qualify "" document)).toOption = registry.root? ∧
      registry.denoted? document "" = registry.get? document := by
  have hwhole (id : String) : registry.denoted? id "" = registry.get? id := by
    rw [denoted?]
    cases registry.get? id with
    | none => rfl
    | some root => rfl
  have hclosed : qualify "" document = "" := qualify_of_closed (by simp) document
  rw [hclosed, toOption_resolve]
  exact ⟨hwhole _, hwhole document⟩

/-- A reference that stays in its document, once it is qualified with it, denotes what its pointer
denotes there, unless it is the empty one; then it does so only if the document is what is known as
the root. All other references denote what they denoted, and whatever was qualified stays as it is
from then on. -/
theorem resolve_qualify (hdocument : Names document) (registry : Registry) (text : String) :
    ((parse text).isLocal = true →
      ((registry.resolve (qualify text document)).toOption = registry.denoted? document text ↔
        text ≠ "" ∨ registry.root? = registry.get? document)) ∧
    ((parse text).isLocal = false →
      registry.resolve (qualify text document) = registry.resolve text) ∧
    ∀ other, qualify (qualify text document) other = qualify text document := by
  refine ⟨fun hlocal => ?_, fun houtside => ?_, qualify_qualify hdocument text⟩
  · rcases isLocal_iff.1 hlocal with hempty | hopen
    · subst hempty
      obtain ⟨hresolve, hdenoted⟩ := resolve_qualify_empty registry document
      rw [hresolve, hdenoted]
      simp
    · have hne : text ≠ "" := by
        intro hempty
        rw [hempty] at hopen
        cases hopen
      simp only [resolve_qualify_of_open hdocument hopen, ne_eq, hne, not_false_eq_true, true_or]
  · have hclosed : text.toList.head? ≠ some '#' := by
      intro hopen
      exact Bool.false_ne_true (houtside.symm.trans (isLocal_iff.2 (.inr hopen)))
    rw [qualify_of_closed hclosed]

def pageWithTree : Registry where
  documents := [
    (rootDocument, { keywords := { title := some "Page" } }),
    ("tree.json", {
      keywords := { title := some "Tree" }
      properties := some [("child", .ofReference ""), ("label", .ofType "string")] })]

theorem resolve_qualify_pageWithTree :
    Names "tree.json" ∧ (parse "#/properties/label").isLocal = true ∧
      (pageWithTree.resolve (qualify "#/properties/label" "tree.json")).toOption =
        pageWithTree.denoted? "tree.json" "#/properties/label" ∧
      ((pageWithTree.denoted? "tree.json" "#/properties/label").bind Schema.typeName?) =
        some "string" := by
  have hnames : Names "tree.json" := ⟨by decide, by decide⟩
  have hlocal : (parse "#/properties/label").isLocal = true := by decide +kernel
  have hdenotes := (resolve_qualify hnames pageWithTree "#/properties/label").1 hlocal
  exact ⟨hnames, hlocal, hdenotes.2 (.inl (by decide)), by decide +kernel⟩

/-- The empty reference of a tree denotes the page, once it is carried there. -/
theorem exists_resolve_qualify_ne : ∃ (registry : Registry) (document text : String),
    Names document ∧ (parse text).isLocal = true ∧ (registry.denoted? document text).isSome ∧
      (registry.resolve (qualify text document)).toOption ≠ registry.denoted? document text := by
  refine ⟨pageWithTree, "tree.json", "", ⟨by decide, by decide⟩, by decide +kernel,
    by decide +kernel, fun heq => ?_⟩
  have htitle : ((pageWithTree.resolve (qualify "" "tree.json")).toOption.bind
        (·.keywords.title)) =
      (pageWithTree.denoted? "tree.json" "").bind (·.keywords.title) := by
    rw [heq]
  exact absurd htitle (by decide +kernel)

end Registry

end SchemaCatalog
