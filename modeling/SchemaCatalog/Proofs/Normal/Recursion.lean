import SchemaCatalog.Proofs.Normal.Fixpoint
import Mathlib.Data.List.Nodup

namespace SchemaCatalog

namespace Scope

variable {scope : Scope} {a b c r current : String} {chain visited stack : List String}

/-- `b` is the `$ref` of what `a` denotes, and may be inlined. -/
def Hops (scope : Scope) (a b : String) : Prop := scope.Alias a b ∧ scope.isInlinable b = .ok true

/-- The hops that start at the reference lead into a loop of them. -/
def Loops (scope : Scope) (r : String) : Prop :=
  ∃ x, Relation.ReflTransGen scope.Hops r x ∧ Relation.TransGen scope.Hops x x

/-- The chain that starts at `r` and ends where it comes to a reference for the second time. -/
structure Closes (scope : Scope) (r : String) (chain : List String) : Prop where
  starts : chain.head? = some r
  returns : ∃ front last, chain = front ++ [last] ∧ front.Nodup ∧ last ∈ front
  hops : chain.IsChain scope.Hops

theorem Hops.unique (hb : scope.Hops a b) (hc : scope.Hops a c) : b = c := by
  obtain ⟨target, r, htarget, hr, hb⟩ := hb.1
  obtain ⟨target', r', htarget', hr', hc⟩ := hc.1
  cases htarget.symm.trans htarget'
  cases hr.symm.trans hr'
  exact hb.trans hc.symm

theorem Hops.mem (h : scope.Hops a b) : b ∈ scope.registry.mentioned := by
  obtain ⟨target, r, htarget, hr, hb⟩ := h.1
  have hreference : r ∈ target.references :=
    Schema.mem_references_iff.2 ⟨target, .refl target, hr⟩
  have hmentions : scope.Mentions a b := ⟨target, htarget, r, hreference, hb⟩
  exact hmentions.mem

theorem Loops.next (h : scope.Loops a) : ∃ b, scope.Hops a b ∧ scope.Loops b := by
  obtain ⟨x, hreach, hloop⟩ := h
  cases Relation.ReflTransGen.cases_head hreach with
  | inl heq =>
    subst heq
    obtain ⟨b, hb, hback⟩ := Relation.TransGen.head'_iff.1 hloop
    exact ⟨b, hb, a, hback, hloop⟩
  | inr hstep =>
    obtain ⟨b, hb, hreach⟩ := hstep
    exact ⟨b, hb, x, hreach, hloop⟩

theorem Closes.loops (h : scope.Closes r chain) : scope.Loops r := by
  obtain ⟨front, last, hchain, -, hlast⟩ := h.returns
  have hpairwise : chain.Pairwise (Relation.TransGen scope.Hops) :=
    List.isChain_iff_pairwise.1 (h.hops.imp fun _ _ => .single)
  have hstarts := h.starts
  subst hchain
  have hbefore {x : String} (hx : x ∈ front) : Relation.TransGen scope.Hops x last :=
    (List.pairwise_append.1 hpairwise).2.2 x hx last (List.mem_singleton.2 rfl)
  cases front with
  | nil => cases hlast
  | cons first rest =>
    cases hstarts
    exact ⟨last, (hbefore List.mem_cons_self).to_reflTransGen, hbefore hlast⟩

/-- The walk along hops from `current`, with the references met so far, and how it ends. -/
inductive Traces (scope : Scope) : List String → String → Outcome Unit → Prop
  | ends {chain : List String} {current : String} : (∀ b, ¬ scope.Hops current b) →
    Traces scope chain current (.ok ())
  | returns {chain : List String} {current b : String} : scope.Hops current b → b ∈ chain →
    Traces scope chain current (.error (.cyclicReference (chain ++ [b])))
  | next {chain : List String} {current b : String} {result : Outcome Unit} :
    scope.Hops current b → b ∉ chain → Traces scope (chain ++ [b]) b result →
      Traces scope chain current result

theorem Traces.not_loops {result : Outcome Unit} (h : scope.Traces chain current result)
    (hresult : result = .ok ()) : ¬ scope.Loops current := by
  intro hloops
  obtain ⟨b, hb, hahead⟩ := hloops.next
  induction h generalizing b with
  | ends hnone => exact hnone b hb
  | returns _ _ => cases hresult
  | next hhop _ _ ih =>
    cases hhop.unique hb
    obtain ⟨c, hc, hthere⟩ := hahead.next
    exact ih hresult hahead c hc hthere

theorem isChain_concat (hhops : chain.IsChain scope.Hops) (hlast : chain.getLast? = some current)
    (hb : scope.Hops current b) : (chain ++ [b]).IsChain scope.Hops := by
  refine hhops.append (.singleton b) fun x hx y hy => ?_
  cases hlast.symm.trans hx
  cases hy
  exact hb

theorem Traces.closes {result : Outcome Unit} {e : CatalogError}
    (h : scope.Traces chain current result) (hresult : result = .error e)
    (hstarts : chain.head? = some r) (hnodup : chain.Nodup) (hhops : chain.IsChain scope.Hops)
    (hlast : chain.getLast? = some current) :
    ∃ closed, e = .cyclicReference closed ∧ scope.Closes r closed := by
  induction h with
  | ends _ => cases hresult
  | returns hb hmem =>
    cases hresult
    refine ⟨_, rfl, ?_, ⟨_, _, rfl, hnodup, hmem⟩, isChain_concat hhops hlast hb⟩
    rw [List.head?_append, hstarts, Option.some_or]
  | next hb hfresh _ ih =>
    apply ih hresult
    · rw [List.head?_append, hstarts, Option.some_or]
    · exact List.concat_eq_append ▸ hnodup.concat hfresh
    · exact isChain_concat hhops hlast hb
    · exact List.getLast?_concat

/-- What one step of the walk finds. -/
theorem followAliases_step (scope : Scope) (fuel : Nat) (chain : List String) (current : String) :
    ((∀ b, ¬ scope.Hops current b) ∧ scope.followAliases (fuel + 1) chain current = .ok ()) ∨
      ∃ b, scope.Hops current b ∧ scope.followAliases (fuel + 1) chain current =
        if chain.contains b then .error (.cyclicReference (chain ++ [b]))
        else scope.followAliases fuel (chain ++ [b]) b := by
  rw [followAliases]
  cases htarget : scope.registry.resolve current with
  | error e =>
    refine .inl ⟨fun b hb => ?_, rfl⟩
    obtain ⟨target, _, htarget', _⟩ := hb.1
    cases htarget.symm.trans htarget'
  | ok target =>
    cases hnext : target.reference with
    | none =>
      refine .inl ⟨fun b hb => ?_, by simp only [hnext]⟩
      obtain ⟨target', r, htarget', hr, _⟩ := hb.1
      cases htarget.symm.trans htarget'
      cases hnext.symm.trans hr
    | some next =>
      have halias : scope.Alias current
          (Reference.qualify next (Reference.parse current).document) :=
        ⟨target, next, htarget, hnext, rfl⟩
      simp only [hnext]
      cases hinlines : scope.inlines
          (Reference.qualify next (Reference.parse current).document) with
      | false =>
        refine .inl ⟨fun b hb => ?_, rfl⟩
        obtain ⟨target', r, htarget', hr, hqualified⟩ := hb.1
        cases htarget.symm.trans htarget'
        cases hnext.symm.trans hr
        rw [← hqualified, inlines_iff.2 hb.2] at hinlines
        cases hinlines
      | true => exact .inr ⟨_, ⟨halias, inlines_iff.1 hinlines⟩, rfl⟩

/-- With fuel for every reference that occurs in the documents, the bounded walk is the walk. -/
theorem traces_followAliases {fuel : Nat} (hnodup : chain.Nodup)
    (hmem : chain ⊆ r :: scope.registry.mentioned)
    (hfuel : scope.registry.mentioned.length + 1 < chain.length + fuel) :
    scope.Traces chain current (scope.followAliases fuel chain current) := by
  induction fuel generalizing chain current with
  | zero =>
    have hlength := (hnodup.subperm hmem).length_le
    rw [List.length_cons] at hlength
    omega
  | succ fuel ih =>
    obtain ⟨hnone, hrun⟩ | ⟨b, hb, hrun⟩ := followAliases_step scope fuel chain current
    · rw [hrun]
      exact .ends hnone
    · rw [hrun]
      by_cases hcontains : b ∈ chain
      · rw [if_pos (List.contains_iff_mem.2 hcontains)]
        exact .returns hb hcontains
      · rw [if_neg fun h => hcontains (List.contains_iff_mem.1 h)]
        refine .next hb hcontains (ih ?_ ?_ ?_)
        · exact List.concat_eq_append ▸ hnodup.concat hcontains
        · refine List.append_subset.2 ⟨hmem, fun x hx => ?_⟩
          exact List.mem_singleton.1 hx ▸ List.mem_cons_of_mem _ hb.mem
        · rw [List.length_append, List.length_singleton]
          omega

theorem traces_checkAliases (r : String) : scope.Traces [r] r (scope.checkAliases r) := by
  refine traces_followAliases (List.nodup_singleton r) (List.cons_subset_cons r (by simp)) ?_
  have hlength := scope.registry.length_mentioned
  rw [List.length_singleton]
  omega

/-- The search for `goal` from the stacked references, and its verdict. -/
inductive Searches (scope : Scope) (goal : String) : List String → List String → Bool → Prop
  | exhausted {visited : List String} : Searches scope goal visited [] false
  | found {current : String} {visited stack : List String} : scope.Leads current goal →
    Searches scope goal visited (current :: stack) true
  | next {current : String} {visited stack fresh : List String} {verdict : Bool} :
    ¬ scope.Leads current goal → fresh.Nodup →
      (∀ b, b ∈ fresh ↔ scope.Leads current b ∧ b ∉ visited) →
        Searches scope goal (visited ++ fresh) (fresh ++ stack) verdict →
          Searches scope goal visited (current :: stack) verdict

/-- With fuel for what is stacked and what was not met yet, the bounded search is the search. -/
theorem Searched.searches {goal : String} {fuel : Nat} (h : scope.Searched goal visited stack)
    (hfuel : stack.length + (scope.registry.mentioned.length - visited.length) < fuel) :
    scope.Searches goal visited stack (scope.search goal fuel visited stack) := by
  induction fuel generalizing visited stack with
  | zero => omega
  | succ fuel ih =>
    cases stack with
    | nil => exact .exhausted
    | cons current stack =>
      rw [search]
      by_cases hgoal : goal ∈ scope.successors current
      · simp only [List.contains_iff_mem.2 hgoal, if_true]
        exact .found (mem_successors_iff.1 hgoal)
      · have hstep := h.step hgoal
        simp only [List.contains_eq_mem, decide_eq_true_iff, if_neg hgoal] at hstep ⊢
        refine .next (fun h => hgoal (mem_successors_iff.2 h)) (nodup_eraseDups _) ?_ (ih hstep ?_)
        · intro b
          simp [mem_successors_iff]
        · have hlength := (hstep.nodup.subperm hstep.mentioned).length_le
          simp only [List.length_append, List.length_cons] at hfuel hlength ⊢
          omega

theorem searches_leadsBack (r : String) : scope.Searches r [] [r] (scope.leadsBack r) := by
  apply (searched_start r).searches
  have hlength := scope.registry.length_mentioned
  simp only [List.length_cons, List.length_nil]
  omega

/-- The verdicts that can be known in a run: none at first, and after a call those it knows then.
A call that fails leaves them as they are. -/
inductive Remembers (scope : Scope) : Entries Bool → Prop
  | nothing : Remembers scope []
  | call {known known' : Entries Bool} {r : String} {verdict : Bool} : Remembers scope known →
    scope.verdictOf known r = .ok (verdict, known') → Remembers scope known'

theorem Remembers.known {known : Entries Bool} (h : scope.Remembers known) :
    scope.Known known := by
  induction h with
  | nothing => exact known_nil
  | call _ hcall ih => exact (verdictOf_ok ih hcall).2

theorem Known.verdictOf {known : Entries Bool} (h : scope.Known known) (r : String) :
    (scope.verdictOf known r).map Prod.fst = scope.isRecursive r := by
  rw [Scope.verdictOf]
  cases hlookup : known.lookup r with
  | some verdict => exact (h r verdict hlookup).symm
  | none =>
    cases scope.isRecursive r with
    | error e => rfl
    | ok verdict => rfl

theorem isRecursive_eq (scope : Scope) (r : String) :
    (scope.Loops r ∧ ∃ chain, scope.isRecursive r = .error (.cyclicReference chain) ∧
      scope.Closes r chain) ∨
    (¬ scope.Loops r ∧ scope.isRecursive r = .ok (scope.leadsBack r)) := by
  have hwalk := scope.traces_checkAliases r
  rw [isRecursive]
  cases hcheck : scope.checkAliases r with
  | ok _ => exact .inr ⟨(hcheck ▸ hwalk).not_loops rfl, rfl⟩
  | error e =>
    rw [hcheck] at hwalk
    obtain ⟨chain, he, hcloses⟩ :=
      hwalk.closes rfl rfl (List.nodup_singleton r) (.singleton r) rfl
    exact .inl ⟨hcloses.loops, chain, he ▸ rfl, hcloses⟩

/-- With whatever verdicts are known from before, a reference is refused if its hops loop, and else
found recursive if what it denotes leads back to it. Walk and search both end. -/
theorem verdictOf_recursive {known : Entries Bool} (hknown : scope.Remembers known) (r : String) :
    scope.Traces [r] r (scope.checkAliases r) ∧
      scope.Searches r [] [r] (scope.leadsBack r) ∧
      ((scope.verdictOf known r).map Prod.fst = .ok true ↔
        ¬ scope.Loops r ∧ scope.Recursive r) ∧
      ((scope.verdictOf known r).map Prod.fst = .ok false ↔
        ¬ scope.Loops r ∧ ¬ scope.Recursive r) ∧
      ((∃ e, (scope.verdictOf known r).map Prod.fst = .error e) ↔ scope.Loops r) ∧
      (∀ e, (scope.verdictOf known r).map Prod.fst = .error e →
        ∃ chain, e = .cyclicReference chain ∧ scope.Closes r chain) ∧
      (scope.verdictOf known r).map Prod.fst = (scope.verdictOf [] r).map Prod.fst := by
  refine ⟨traces_checkAliases r, searches_leadsBack r, ?_⟩
  rw [hknown.known.verdictOf, known_nil.verdictOf]
  obtain ⟨hloops, chain, hrun, hcloses⟩ | ⟨hloops, hrun⟩ := isRecursive_eq scope r
  · rw [hrun]
    refine ⟨?_, ?_, ⟨fun _ => hloops, fun _ => ⟨_, rfl⟩⟩, ?_, rfl⟩
    · exact ⟨nofun, fun h => absurd hloops h.1⟩
    · exact ⟨nofun, fun h => absurd hloops h.1⟩
    · intro e he
      cases he
      exact ⟨chain, rfl, hcloses⟩
  · rw [hrun]
    simp only [Except.ok.injEq]
    refine ⟨?_, ?_, ⟨nofun, fun h => absurd h hloops⟩, nofun, trivial⟩
    · rw [leadsBack_iff, and_iff_right hloops]
    · rw [← Bool.not_eq_true, leadsBack_iff, and_iff_right hloops]

def nested : Scope where
  registry := ({} : Registry).registerRoot { definitions := some [
    ("Value", { anyOf := some [.ofType "string",
      { items := some (.tuple [.ofReference "#/definitions/Pair",
        .ofReference "#/definitions/Value"]) }] }),
    ("Pair", { items := some (.single (.ofReference "#/definitions/Value")) })] }

theorem verdictOf_recursive_nested : ∃ known,
    nested.verdictOf [] "#/definitions/Value" = .ok (true, known) ∧ known ≠ [] ∧
      nested.Remembers known ∧ nested.Recursive "#/definitions/Pair" := by
  have hvalue : (nested.verdictOf [] "#/definitions/Value").toOption =
      some (true, [("#/definitions/Value", true)]) := by
    decide +kernel
  have hpair : (nested.verdictOf [("#/definitions/Value", true)] "#/definitions/Pair").toOption =
      some (true, [("#/definitions/Value", true), ("#/definitions/Pair", true)]) := by
    decide +kernel
  have hknown := Remembers.nothing.call (eq_ok_of_toOption hvalue)
  have hverdict := congrArg (Except.map Prod.fst) (eq_ok_of_toOption hpair)
  refine ⟨_, eq_ok_of_toOption hvalue, by simp, hknown, ?_⟩
  exact ((verdictOf_recursive hknown "#/definitions/Pair").2.2.1.1 hverdict).2

end Scope

end SchemaCatalog
