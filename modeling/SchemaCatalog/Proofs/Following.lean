import SchemaCatalog.Proofs.Documents.Growth
import SchemaCatalog.Proofs.Navigation
import Mathlib.Data.List.Perm.Subperm

namespace SchemaCatalog.Json

variable {document value next target target' : Json} {text : String}
  {chain texts texts' listed : List String} {result result' : Outcome Json}

theorem references_child? {key : String} (h : value.child? key = some next) :
    next.references ⊆ value.references := by
  intro text htext
  cases value with
  | object members =>
    exact List.mem_append_right _ (mem_memberReferences (mem_of_lookup h) htext)
  | array items =>
    obtain ⟨i, _, hitem⟩ := Option.bind_eq_some_iff.1 h
    exact mem_itemReferences (List.mem_of_getElem? hitem) htext
  | _ => cases h

theorem references_descend? {path : List String} (h : value.descend? path = some target) :
    target.references ⊆ value.references := by
  induction path generalizing value with
  | nil =>
    cases h
    exact List.Subset.refl _
  | cons key rest ih =>
    obtain ⟨next, hnext, hrest⟩ := Option.bind_eq_some_iff.1 h
    exact List.Subset.trans (ih hrest) (references_child? hnext)

theorem navigate_error {e : CatalogError} (h : document.navigate text = .error e) :
    e = .unresolvedPointer text none := by
  rw [navigate] at h
  split at h
  · cases h
  · cases h
    rfl

theorem referenceText?_navigate (h : document.navigate text = .ok next) :
    next.referenceText?.toList ⊆ document.references := by
  intro text' htext'
  have hrefers : next.Refers text' := .here (Option.mem_toList.1 htext')
  exact references_descend? (navigate_eq_ok_iff.1 h) hrefers.mem_references

/-- Local references are followed from a value, one after another, to another value. -/
inductive Trail (document : Json) : Json → List String → Json → Prop
  | here {value : Json} : Trail document value [] value
  | next {value next target : Json} {text : String} {texts : List String} :
    value.referenceText? = some text → (Reference.parse text).isLocal = true →
      document.navigate text = .ok next → Trail document next texts target →
        Trail document value (text :: texts) target

/-- How following stops at a value, when the references in `chain` have been followed. -/
inductive Stops (document : Json) (chain : List String) (value : Json) : Outcome Json → Prop
  | arrives : value.referenceText? = none → Stops document chain value (.ok value)
  | leaves {text : String} : value.referenceText? = some text →
    (Reference.parse text).isLocal = false →
      Stops document chain value (.error (.unknownDocument (Reference.parse text).document text))
  | returns {text : String} : value.referenceText? = some text →
    (Reference.parse text).isLocal = true → text ∈ chain →
      Stops document chain value (.error (.cyclicReference (chain ++ [text])))
  | misses {text : String} {e : CatalogError} : value.referenceText? = some text →
    (Reference.parse text).isLocal = true → text ∉ chain → document.navigate text = .error e →
      Stops document chain value (.error e)

theorem stops_or_goes (document : Json) (chain : List String) (value : Json) :
    (∃ result, Stops document chain value result) ∨
      ∃ text next, value.referenceText? = some text ∧ (Reference.parse text).isLocal = true ∧
        text ∉ chain ∧ document.navigate text = .ok next := by
  cases htext : value.referenceText? with
  | none => exact .inl ⟨_, .arrives htext⟩
  | some text =>
    cases hlocal : (Reference.parse text).isLocal with
    | false => exact .inl ⟨_, .leaves htext hlocal⟩
    | true =>
      by_cases hmem : text ∈ chain
      · exact .inl ⟨_, .returns htext hlocal hmem⟩
      · cases hnext : document.navigate text with
        | error e => exact .inl ⟨_, .misses htext hlocal hmem hnext⟩
        | ok next => exact .inr ⟨text, next, rfl, hlocal, hmem, hnext⟩

theorem Stops.not_goes (h : Stops document chain value result)
    (htext : value.referenceText? = some text) (hlocal : (Reference.parse text).isLocal = true)
    (hfresh : text ∉ chain) : document.navigate text ≠ .ok next := by
  intro hnext
  cases h with
  | arrives hnone => cases hnone.symm.trans htext
  | leaves htext' hlocal' =>
    cases htext'.symm.trans htext
    cases hlocal'.symm.trans hlocal
  | returns htext' _ hmem =>
    cases htext'.symm.trans htext
    exact hfresh hmem
  | misses htext' _ _ he =>
    cases htext'.symm.trans htext
    cases he.symm.trans hnext

theorem followFrom_next {fuel : Nat} (htext : value.referenceText? = some text)
    (hlocal : (Reference.parse text).isLocal = true) (hfresh : text ∉ chain)
    (hnext : document.navigate text = .ok next) :
    followFrom document (fuel + 1) chain value =
      followFrom document fuel (chain ++ [text]) next := by
  have hcontains := Bool.eq_false_iff.2 (mt List.contains_iff_mem.1 hfresh)
  rw [followFrom, htext]
  simp only [hlocal, hcontains, hnext, Bool.not_true, Bool.false_eq_true, if_false]
  rfl

theorem followFrom_of_stops {fuel : Nat} (h : Stops document chain value result)
    (hfuel : ∀ text, value.referenceText? = some text → text ∉ chain → fuel ≠ 0) :
    followFrom document fuel chain value = result := by
  unfold followFrom
  cases h with
  | arrives hnone => simp only [hnone]
  | leaves htext hlocal => simp only [htext, hlocal, Bool.not_false, if_true]
  | returns htext hlocal hmem =>
    simp only [htext, hlocal, List.contains_iff_mem.2 hmem, Bool.not_true, Bool.false_eq_true,
      if_false, if_true]
  | misses htext hlocal hfresh he =>
    have hcontains := Bool.eq_false_iff.2 (mt List.contains_iff_mem.1 hfresh)
    obtain ⟨fuel, rfl⟩ := Nat.exists_eq_succ_of_ne_zero (hfuel _ htext hfresh)
    simp only [htext, hlocal, hcontains, he, Bool.not_true, Bool.false_eq_true, if_false]
    rfl

theorem length_lt_of_fresh (hnodup : chain.Nodup) (hchain : chain ⊆ listed) (htext : text ∈ listed)
    (hfresh : text ∉ chain) : chain.length < listed.length := by
  have hmore := hnodup.cons hfresh
  exact (hmore.subperm (List.cons_subset.2 ⟨htext, hchain⟩)).length_le

/-- From a value, with the references in `chain` followed before, a trail that repeats none leads to
where following stops. -/
def Halts (document : Json) (chain : List String) (value : Json) (result : Outcome Json) : Prop :=
  ∃ texts target, Trail document value texts target ∧ (chain ++ texts).Nodup ∧
    Stops document (chain ++ texts) target result

theorem Halts.here (hnodup : chain.Nodup) (h : Stops document chain value result) :
    Halts document chain value result := by
  refine ⟨[], value, .here, ?_⟩
  rw [List.append_nil]
  exact ⟨hnodup, h⟩

theorem Halts.step (htext : value.referenceText? = some text)
    (hlocal : (Reference.parse text).isLocal = true) (hnext : document.navigate text = .ok next)
    (h : Halts document (chain ++ [text]) next result) : Halts document chain value result := by
  obtain ⟨texts, target, htrail, hnodup, hstops⟩ := h
  rw [← List.append_cons] at hnodup hstops
  exact ⟨text :: texts, target, .next htext hlocal hnext htrail, hnodup, hstops⟩

/-- With fuel for all references that are listed, those of the document being among them, the
bounded loop halts where following does. -/
theorem halts_followFrom {fuel : Nat} (hdocument : document.references ⊆ listed)
    (hvalue : value.referenceText?.toList ⊆ listed) (hnodup : chain.Nodup)
    (hchain : chain ⊆ listed) (hfuel : listed.length ≤ chain.length + fuel) :
    Halts document chain value (followFrom document fuel chain value) := by
  induction fuel generalizing chain value with
  | zero =>
    -- all references that are listed have been followed
    have hall (text : String) (htext : value.referenceText? = some text) : text ∈ chain := by
      by_contra hfresh
      have hlength := length_lt_of_fresh hnodup hchain (hvalue (Option.mem_toList.2 htext)) hfresh
      omega
    obtain ⟨result, hstops⟩ | ⟨text, _, htext, _, hfresh, _⟩ := stops_or_goes document chain value
    · rw [followFrom_of_stops hstops fun text htext hfresh => absurd (hall text htext) hfresh]
      exact .here hnodup hstops
    · exact absurd (hall text htext) hfresh
  | succ fuel ih =>
    obtain ⟨result, hstops⟩ | ⟨text, next, htext, hlocal, hfresh, hnext⟩ :=
      stops_or_goes document chain value
    · rw [followFrom_of_stops hstops fun _ _ _ => Nat.succ_ne_zero fuel]
      exact .here hnodup hstops
    · rw [followFrom_next htext hlocal hfresh hnext]
      apply Halts.step htext hlocal hnext
      apply ih
      · exact List.Subset.trans (referenceText?_navigate hnext) hdocument
      · exact List.concat_eq_append ▸ hnodup.concat hfresh
      · exact List.append_subset.2 ⟨hchain, by simpa [htext] using hvalue⟩
      · rw [List.length_append, List.length_singleton]
        omega

theorem Stops.unique (h : Stops document chain value result)
    (h' : Stops document chain value result') : result = result' := by
  have hfuel : ∀ text, value.referenceText? = some text → text ∉ chain → 1 ≠ 0 :=
    fun _ _ _ => Nat.one_ne_zero
  rw [← followFrom_of_stops h hfuel, followFrom_of_stops h' hfuel]

theorem not_mem_of_nodup (h : (chain ++ text :: texts).Nodup) : text ∉ chain :=
  fun hmem => List.disjoint_of_nodup_append h hmem List.mem_cons_self

/-- There is one way on from each value, so two trails without repeats stop alike. -/
theorem Trail.stops_unique (h : Trail document value texts target)
    (h' : Trail document value texts' target') (hnodup : (chain ++ texts).Nodup)
    (hnodup' : (chain ++ texts').Nodup) (hstops : Stops document (chain ++ texts) target result)
    (hstops' : Stops document (chain ++ texts') target' result') : result = result' := by
  induction h generalizing chain texts' with
  | here =>
    cases h' with
    | here => exact hstops.unique hstops'
    | next htext hlocal hnext _ =>
      rw [List.append_nil] at hstops
      exact absurd hnext (hstops.not_goes htext hlocal (not_mem_of_nodup hnodup'))
  | next htext hlocal hnext _ ih =>
    cases h' with
    | here =>
      rw [List.append_nil] at hstops'
      exact absurd hnext (hstops'.not_goes htext hlocal (not_mem_of_nodup hnodup))
    | next htext' _ hnext' hrest' =>
      cases htext.symm.trans htext'
      cases hnext.symm.trans hnext'
      rw [List.append_cons] at hnodup hnodup' hstops hstops'
      exact ih hrest' hnodup hnodup' hstops hstops'

theorem Halts.unique (h : Halts document chain value result)
    (h' : Halts document chain value result') : result = result' := by
  obtain ⟨texts, target, htrail, hnodup, hstops⟩ := h
  obtain ⟨texts', target', htrail', hnodup', hstops'⟩ := h'
  exact htrail.stops_unique htrail' hnodup hnodup' hstops hstops'

theorem Trail.halts (h : Trail document value texts target) (hnodup : chain.Nodup)
    (hlocal : ∀ text ∈ chain, (Reference.parse text).isLocal = true)
    (htext : target.referenceText? = some text) (hrepeat : text ∈ chain ++ texts) :
    ∃ cycle, Halts document chain value (.error (.cyclicReference cycle)) := by
  induction h generalizing chain with
  | here =>
    rw [List.append_nil] at hrepeat
    exact ⟨_, .here hnodup (.returns htext (hlocal text hrepeat) hrepeat)⟩
  | @next _ _ _ first _ hfirst hfirstLocal hnext _ ih =>
    by_cases hmem : first ∈ chain
    · exact ⟨_, .here hnodup (.returns hfirst hfirstLocal hmem)⟩
    · have hlocal' : ∀ text ∈ chain ++ [first], (Reference.parse text).isLocal = true :=
        List.forall_mem_append.2 ⟨hlocal, List.forall_mem_singleton.2 hfirstLocal⟩
      rw [List.append_cons] at hrepeat
      obtain ⟨cycle, hhalts⟩ :=
        ih (List.concat_eq_append ▸ hnodup.concat hmem) hlocal' htext hrepeat
      exact ⟨cycle, hhalts.step hfirst hfirstLocal hnext⟩

theorem Trail.subset (h : Trail document value texts target) :
    texts ⊆ value.referenceText?.toList ++ document.references := by
  induction h with
  | here => exact List.nil_subset _
  | next htext _ hnext _ ih =>
    have hrest := List.append_subset.2 ⟨referenceText?_navigate hnext, List.Subset.refl _⟩
    apply List.cons_subset.2
    rw [htext]
    exact ⟨List.mem_cons_self, List.subset_append_of_subset_right _ (List.Subset.trans ih hrest)⟩

theorem length_toList_append (option : Option String) (listed : List String) :
    (option.toList ++ listed).length ≤ listed.length + 1 := by
  cases option with
  | none => exact Nat.le_succ _
  | some _ => exact Nat.le_refl _

theorem Trail.length_le (h : Trail document value texts target) (hnodup : texts.Nodup) :
    texts.length ≤ document.references.length + 1 :=
  Nat.le_trans (hnodup.subperm h.subset).length_le (length_toList_append _ _)

theorem halts_follow (document value : Json) :
    Halts document [] value (document.follow value) :=
  halts_followFrom (List.subset_append_right _ _) (List.subset_append_left _ _) List.nodup_nil
    (List.nil_subset _) (by simpa using length_toList_append _ _)

theorem follow_eq_iff : document.follow value = result ↔ Halts document [] value result := by
  have hhalts := halts_follow document value
  exact ⟨fun h => h ▸ hhalts, fun h => hhalts.unique h⟩

/-- Following ends: along a trail that repeats no reference, and so has at most one more than the
document, it comes to a value where it stops. If it succeeds, then at a value without a reference;
and it fails with a cycle exactly if a reference comes for the second time before one leads to
another document or to nothing. -/
theorem follow_ends (document value : Json) :
    (∀ result, document.follow value = result ↔ Halts document [] value result) ∧
    (∀ texts target, Trail document value texts target → texts.Nodup →
      texts.length ≤ document.references.length + 1) ∧
    (∀ target, document.follow value = .ok target →
      target.referenceText? = none ∧ ∃ texts, Trail document value texts target) ∧
    ((∃ chain, document.follow value = .error (.cyclicReference chain)) ↔
      ∃ texts target text, Trail document value texts target ∧
        target.referenceText? = some text ∧ text ∈ texts) := by
  refine ⟨fun _ => follow_eq_iff, fun _ _ h hnodup => h.length_le hnodup, ?_, ?_, ?_⟩
  · intro target h
    obtain ⟨texts, target, htrail, _, hstops⟩ := follow_eq_iff.1 h
    cases hstops with
    | arrives hnone => exact ⟨hnone, texts, htrail⟩
  · rintro ⟨chain, h⟩
    obtain ⟨texts, target, htrail, _, hstops⟩ := follow_eq_iff.1 h
    cases hstops with
    | returns htext _ hmem => exact ⟨texts, target, _, htrail, htext, hmem⟩
    | misses _ _ _ he => cases navigate_error he
  · rintro ⟨texts, target, text, htrail, htext, hrepeat⟩
    obtain ⟨cycle, hhalts⟩ := htrail.halts List.nodup_nil nofun htext hrepeat
    exact ⟨cycle, follow_eq_iff.2 hhalts⟩

/-- Two parameters that are each defined as the other. -/
example : follow
    (.object [("a", .object [("$ref", .string "#/b")]), ("b", .object [("$ref", .string "#/a")])])
    (.object [("$ref", .string "#/a")]) = .error (.cyclicReference ["#/a", "#/b", "#/a"]) := by
  rfl

end SchemaCatalog.Json
