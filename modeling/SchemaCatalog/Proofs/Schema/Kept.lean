import SchemaCatalog.Proofs.Schema.References

namespace SchemaCatalog.Schema

/-- A property of schemas that is kept where references are cleared, schemas merged, and lists
dropped or replaced. -/
structure Kept (P : Schema → Prop) : Prop extends Inherited P where
  empty : P {}
  clearReference {s : Schema} : P s → P s.clearReference
  fillAbsent {s t : Schema} : P s → P t → P (s.fillAbsent t)
  overwriteFrom {s t : Schema} : P s → P t → P (s.overwriteFrom t)
  dropAllOf {s : Schema} : P s → P { s with allOf := none }
  withOneOf {s : Schema} {list : List Schema} : P s → (∀ a ∈ list, P a) →
    P { s with oneOf := some list }

theorem Inherited.within {P : Schema → Prop} {n s : Schema} (h : Inherited P) (hs : P s)
    (hn : Within n s) : P n := by
  induction hn with
  | refl => exact hs
  | tail _ hc ih => exact ih (h.below hs hc)

/-- The keywords of every node satisfy `N`. -/
def Throughout (N : Keywords → Prop) (s : Schema) : Prop := ∀ n, Within n s → N n.keywords

/-- A property of keywords that is kept where a reference is cleared and keywords are merged. -/
structure Mergeable (N : Keywords → Prop) : Prop where
  empty : N {}
  clearReference {kw : Keywords} : N kw → N { kw with reference := none }
  fillAbsent {own source : Keywords} : N own → N source → N (own.fillAbsent source)
  required {kw : Keywords} {names : Option (List String)} : N kw → N { kw with required := names }

variable {N : Keywords → Prop} {s : Schema}

theorem throughout_iff :
    Throughout N s ↔ N s.keywords ∧ ∀ c, Child c s → Throughout N c := by
  constructor
  · exact fun h => ⟨h s (.refl s), fun c hc n hn => h n (hn.child hc)⟩
  · intro h n hn
    cases within_iff.1 hn with
    | inl hn => exact hn ▸ h.1
    | inr hn =>
      obtain ⟨c, hc, hn⟩ := hn
      exact h.2 c hc n hn

theorem inherited_throughout : Inherited (Throughout N) where
  below h hc := (throughout_iff.1 h).2 _ hc
  alike h halike := by
    refine throughout_iff.2 ⟨halike.keywords ▸ (throughout_iff.1 h).1, fun c' hc' => ?_⟩
    obtain ⟨_, _, hc⟩ := halike.flip.child hc'
    exact hc

theorem kept_throughout (hN : Mergeable N) : Kept (Throughout N) where
  toInherited := inherited_throughout
  empty := by
    refine throughout_iff.2 ⟨hN.empty, fun c hc => ?_⟩
    cases hc <;> contradiction
  clearReference h := by
    rw [throughout_iff] at h ⊢
    exact ⟨hN.clearReference h.1, fun c hc => h.2 c (child_clearReference.1 hc)⟩
  fillAbsent hs ht := by
    rw [throughout_iff] at hs ht ⊢
    exact ⟨hN.fillAbsent hs.1 ht.1, fun c hc => (child_fillAbsent hc).elim (hs.2 c) (ht.2 c)⟩
  overwriteFrom hs ht := by
    rw [throughout_iff] at hs ht ⊢
    refine ⟨hN.required (hN.fillAbsent ht.1 hs.1), fun c hc => ?_⟩
    exact (child_overwriteFrom hc).elim (hs.2 c) (ht.2 c)
  dropAllOf h := by
    rw [throughout_iff] at h ⊢
    exact ⟨h.1, fun c hc => h.2 c (child_dropAllOf hc)⟩
  withOneOf h hlist := by
    rw [throughout_iff] at h ⊢
    exact ⟨h.1, fun c hc => (child_withOneOf hc).elim (h.2 c) (hlist c)⟩

theorem kept_inside (Q : String → Prop) : Kept (Inside Q) := by
  have hmergeable : Mergeable fun kw => ∀ r, kw.reference = some r → Q r :=
    { empty := nofun
      clearReference := fun _ => nofun
      fillAbsent := fun ha hb r hr => (or_eq_some hr).elim (ha r) (hb r)
      required := fun h => h }
  have hinside : Inside Q = Throughout fun kw => ∀ r, kw.reference = some r → Q r := by
    funext s
    refine propext ⟨fun h n hn r hr => h r (mem_references_iff.2 ⟨n, hn, hr⟩), fun h r hr => ?_⟩
    obtain ⟨n, hn, hreference⟩ := mem_references_iff.1 hr
    exact h n hn r hreference
  rw [hinside]
  exact kept_throughout hmergeable

end SchemaCatalog.Schema
