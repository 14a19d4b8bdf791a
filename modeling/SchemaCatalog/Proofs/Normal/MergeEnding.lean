import SchemaCatalog.Proofs.Normal.Merges
import SchemaCatalog.Proofs.Schema.Parallel

namespace SchemaCatalog

/-- References of which each one stands in what the one before denotes, and that lead back. -/
structure Registry.Loops (registry : Registry) (chain : List String) : Prop where
  long : 2 ≤ chain.length
  back : ∃ last, chain.getLast? = some last ∧ last ∈ chain.dropLast
  mentions : chain.IsChain ({ registry := registry } : Scope).Mentions

/-- Merging may be refused for a reference that denotes nothing or for references that lead back. -/
def Registry.Refuses (registry : Registry) (e : CatalogError) : Prop :=
  e.IsUnresolved ∨ ∃ chain, e = .cyclicReference chain ∧ registry.Loops chain

namespace Schema

/-- Two outcomes are the same: a schema without a reference, or an error that satisfies `bad`. -/
structure Closes (bad : CatalogError → Prop) (x y : Outcome Schema) : Prop where
  same : x = y
  closed {p : Schema} : x = .ok p → p.reference = none
  refused {e : CatalogError} : x = .error e → bad e

variable {bad : CatalogError → Prop}

theorem Closes.ok {p : Schema} (h : p.reference = none) : Closes bad (.ok p) (.ok p) where
  same := rfl
  closed heq := by
    cases heq
    exact h
  refused heq := by cases heq

theorem Closes.error {e : CatalogError} (h : bad e) : Closes bad (.error e) (.error e) where
  same := rfl
  closed heq := by cases heq
  refused heq := by
    cases heq
    exact h

/-- Steps that end in related values and the same count, or in the same error, which satisfies
`bad`. -/
def agreement (bad : CatalogError → Prop) : Pairing (StateT Nat Outcome) (StateT Nat Outcome) where
  rel R x y := ∀ count, Ensures x count
    (fun a count' => ∃ b, y.run count = .ok (b, count') ∧ R a b)
    fun e => y.run count = .error e ∧ bad e
  pure := by
    intro α β R a b h count
    exact ensures_pure ⟨b, rfl, h⟩
  bind := by
    intro α β γ δ R S x y f g hx hf count
    have hsecond : (y >>= g).run count = y.run count >>= fun (b, count') => (g b).run count' := rfl
    rw [hsecond]
    have hfirst : Ensures x count (fun a count' => ∃ b, y.run count = .ok (b, count') ∧ R a b)
        fun e => (y.run count >>= fun (b, count') => (g b).run count') = .error e ∧ bad e := by
      apply (hx count).mono (fun _ _ h => h)
      intro e he
      rw [he.1]
      exact ⟨rfl, he.2⟩
    apply ensures_bind hfirst
    intro a count' hb
    obtain ⟨b, hb, hR⟩ := hb
    rw [hb]
    exact hf a b hR count'

variable {plain plain' : String → Schema → Outcome Schema}

theorem combine_closes {path : String} {i : Nat} {combined : Schema} {members : List Schema}
    (hcombined : combined.reference = none)
    (hmembers : ∀ m ∈ members, ∀ path, Closes bad (plain path m) (plain' path m)) :
    Closes bad (combine plain path i combined members)
      (combine plain' path i combined members) := by
  induction members generalizing i combined with
  | nil => exact .ok hcombined
  | cons member rest ih =>
    have hmember := hmembers member List.mem_cons_self s!"{path}/{i}"
    rw [combine, combine, ← hmember.same]
    cases hp : plain s!"{path}/{i}" member with
    | error e => exact .error (hmember.refused hp)
    | ok p =>
      have hreference : (combined.overwriteFrom p).reference = none := by
        change p.reference.or combined.reference = none
        rw [hmember.closed hp, hcombined]
        rfl
      exact ih hreference fun m hm => hmembers m (List.mem_cons_of_mem _ hm)

/-- Where two ways to make members plain agree on those whose references satisfy `N`, merging by
either way agrees on schemas whose references do, and leaves every node its reference. -/
theorem parallel_mergeNode {N : String → Prop}
    (hplain : ∀ m, (∀ r, m.reference = some r → N r) →
      ∀ path, Closes bad (plain path m) (plain' path m)) :
    Parallel (agreement bad) (mergeNode plain) (mergeNode plain') (Inside N)
      (fun s t => t.reference = s.reference) Eq where
  below h hc := h.child hc
  node := by
    intro path s t t' hs halike heq count
    cases heq.eq
    unfold mergeNode
    cases hmembers : t.allOf with
    | none => exact ensures_pure ⟨t, rfl, halike.reference.symm, rfl⟩
    | some members =>
      have hcombine : Closes bad (combine plain s!"{path}/allOf" 0 {} members)
          (combine plain' s!"{path}/allOf" 0 {} members) := by
        apply combine_closes rfl
        intro m hm
        apply hplain
        intro r hr
        obtain ⟨c, hc, hreference⟩ := halike.flip.child (.allOf hmembers hm)
        exact (hs.child hc).reference (hreference.symm.trans hr)
      dsimp only
      rw [← hcombine.same]
      cases hcombined : combine plain s!"{path}/allOf" 0 {} members with
      | error e => exact ⟨rfl, hcombine.refused hcombined⟩
      | ok combined =>
        refine ⟨_, rfl, ?_, rfl⟩
        change t.reference.or combined.reference = s.reference
        rw [hcombine.closed hcombined, Option.or_none]
        exact halike.reference.symm

variable {registry : Registry} {known chain : List String} {fuel fuel' : Nat}

/-- References that are being replaced, with fuel for as many more as are known besides them. -/
structure Replacing (known chain : List String) (fuel : Nat) : Prop where
  nodup : chain.Nodup
  subset : chain ⊆ known
  enough : known.length ≤ fuel + chain.length

/-- `r` is known and stands in what the last reference of the chain denotes. -/
structure Next (registry : Registry) (known chain : List String) (r : String) : Prop where
  known : r ∈ known
  mentions : (chain ++ [r]).IsChain ({ registry := registry } : Scope).Mentions

theorem Next.loops {r : String} (h : Next registry known chain r) (hr : r ∈ chain) :
    registry.Loops (chain ++ [r]) where
  long := by
    rw [List.length_append, List.length_singleton]
    exact Nat.succ_le_succ (List.length_pos_of_mem hr)
  back := ⟨r, List.getLast?_concat, by rwa [List.dropLast_concat]⟩
  mentions := h.mentions

theorem Next.expand {r : String} {copy : Schema} (h : Next registry known chain r)
    (hknown : ∀ x ∈ registry.mentioned, x ∈ known) (hcopy : registry.expand r = .ok copy) :
    Inside (Next registry known (chain ++ [r])) copy := by
  intro b hb
  refine ⟨hknown b (Registry.mem_mentioned hcopy hb), ?_⟩
  apply h.mentions.append (List.isChain_singleton b)
  intro x hx y hy
  rw [List.getLast?_concat] at hx
  cases hx
  cases hy
  exact Scope.mentions_of_expand hcopy hb

theorem Replacing.fresh {r : String} (h : Replacing known chain fuel) (hfresh : r ∉ chain)
    (hr : r ∈ known) : ∃ rest, fuel = rest + 1 ∧ Replacing known (chain ++ [r]) rest := by
  obtain ⟨hnodup, hsubset, rest, hrest, henough⟩ :=
    fuel_of_fresh h.nodup h.subset hfresh hr h.enough
  exact ⟨rest, hrest, hnodup, hsubset, henough⟩

/-- With enough fuel, more of it makes no difference, and a member is refused only for a reference
that denotes nothing or for references that lead back. -/
theorem expandMember_closes (hknown : ∀ x ∈ registry.mentioned, x ∈ known) {m : Schema}
    (hfuel : Replacing known chain fuel) (hfuel' : Replacing known chain fuel')
    (hnext : ∀ r, m.reference = some r → Next registry known chain r) (path : String) :
    Closes registry.Refuses (expandMember registry fuel chain path m)
      (expandMember registry fuel' chain path m) := by
  -- each new reference costs one unit of both fuels, and `Replacing` keeps enough for the rest
  induction fuel using Nat.strongRecOn generalizing fuel' chain path m with
  | ind fuel ih =>
    cases hreference : m.reference with
    | none =>
      rw [expandMember_of_closed hreference, expandMember_of_closed hreference]
      exact .ok hreference
    | some r =>
      by_cases hr : r ∈ chain
      · rw [expandMember_of_mem hreference hr, expandMember_of_mem hreference hr]
        exact .error (.inr ⟨_, rfl, (hnext r hreference).loops hr⟩)
      · obtain ⟨rest, hrest, hless⟩ := hfuel.fresh hr (hnext r hreference).known
        obtain ⟨rest', hrest', hless'⟩ := hfuel'.fresh hr (hnext r hreference).known
        subst hrest hrest'
        rw [expandMember_of_fresh hreference hr, expandMember_of_fresh hreference hr]
        cases htarget : registry.expand r with
        | error e =>
          have hunlocated := Registry.resolve_error (Registry.expand_eq_error htarget)
          exact .error (.inl (hunlocated.isUnresolved.locate path))
        | ok target =>
          have hinside := (hnext r hreference).expand hknown htarget
          have hparallel := parallel_mergeNode fun m hm path =>
            ih rest (Nat.lt_succ_self rest) hless hless' hm path
          rw [Outcome.at_of_ok rfl]
          dsimp only [bind, Except.bind]
          obtain ⟨merged, count, hwalk, _, hwalk', hkept, heq⟩ | ⟨e, hwalk, hwalk', hrefused⟩ :=
            (hparallel.walk r target hinside 0).cases
          · subst heq
            dsimp only [Runs.outcome] at hwalk
            rw [hwalk, hwalk']
            -- what is filled in brings the reference of the target with it, if that has one
            apply ih rest (Nat.lt_succ_self rest) hless hless'
            intro b hb
            exact hinside.reference (hkept.symm.trans hb)
          · dsimp only [Runs.outcome] at hwalk
            rw [hwalk, hwalk']
            exact .error hrefused

/-- Merging ends, however references lead back to one another: more fuel makes no difference. It
leaves no list, or it is refused for a reference that denotes nothing or for references that lead
back. -/
theorem mergeAllOf_ends (registry : Registry) (root : Schema) :
    (∀ more, (root.walk (mergeNode (expandMember registry
        (root.references.length + registry.referenceBound + more) [])) "#").run 0 =
      root.mergeAllOf registry) ∧
    ((∃ t count, root.mergeAllOf registry = .ok (t, count) ∧ AllOfFree t) ∨
      (∃ e, root.mergeAllOf registry = .error e ∧ e.IsUnresolved) ∨
      ∃ chain, root.mergeAllOf registry = .error (.cyclicReference chain) ∧
        registry.Loops chain) := by
  have hknown : ∀ x ∈ registry.mentioned, x ∈ root.references ++ registry.mentioned :=
    fun x hx => List.mem_append_right _ hx
  have hfuel (more : Nat) : Replacing (root.references ++ registry.mentioned) []
      (root.references.length + registry.referenceBound + more) := by
    refine ⟨List.nodup_nil, List.nil_subset _, ?_⟩
    rw [List.length_append, ← registry.length_mentioned, List.length_nil]
    omega
  have hinside : Inside (Next registry (root.references ++ registry.mentioned) []) root :=
    fun r hr => ⟨List.mem_append_left _ hr, List.isChain_singleton r⟩
  have hparallel (more : Nat) := parallel_mergeNode fun m hm path =>
    expandMember_closes hknown (hfuel more) (hfuel 0) hm path
  have hwalk (more : Nat) := ((hparallel more).walk "#" root hinside 0).cases
  constructor
  · intro more
    obtain ⟨t, count, hrun, _, hrun', _, heq⟩ | ⟨e, hrun, hrun', _⟩ := hwalk more
    · subst heq
      exact hrun.trans hrun'.symm
    · exact hrun.trans hrun'.symm
  · obtain ⟨t, count, hrun, _⟩ | ⟨e, hrun, _, hrefused⟩ := hwalk 0
    · have h : root.mergeAllOf registry = .ok (t, count) := hrun
      exact .inl ⟨t, count, h, (mergeAllOf_merged h).free⟩
    · have h : root.mergeAllOf registry = .error e := hrun
      rcases hrefused with hunresolved | ⟨chain, heq, hloops⟩
      · exact .inr (.inl ⟨e, h, hunresolved⟩)
      · subst heq
        exact .inr (.inr ⟨chain, h, hloops⟩)

def crossed : Schema where
  definitions := some [
    ("A", { allOf := some [.ofReference "#/definitions/B"] }),
    ("B", { allOf := some [.ofReference "#/definitions/A"] })]

example : crossed.mergeAllOf { documents := [(Reference.rootDocument, crossed)] } matches
    .error (.cyclicReference ["#/definitions/B", "#/definitions/A", "#/definitions/B"]) := by
  decide +kernel

end Schema

end SchemaCatalog
