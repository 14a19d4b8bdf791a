import SchemaCatalog.Proofs.Normal.Reachability
import SchemaCatalog.Proofs.Schema.Merging

namespace SchemaCatalog

/-- The error says that a reference denotes nothing. -/
def CatalogError.IsUnresolved (e : CatalogError) : Prop :=
  (∃ document reference, e = .unknownDocument document reference) ∨
    ∃ reference location, e = .unresolvedPointer reference location

theorem CatalogError.IsUnresolved.locate {e : CatalogError} (h : e.IsUnresolved) (path : String) :
    (e.locate path).IsUnresolved := by
  obtain ⟨document, reference, h⟩ | ⟨reference, location, h⟩ := h
  · subst h
    exact .inl ⟨_, _, rfl⟩
  · subst h
    cases location with
    | none => exact .inr ⟨_, _, rfl⟩
    | some location => exact .inr ⟨_, _, rfl⟩

/-- The error says that a reference denotes nothing, and does not yet say where it stands. -/
def CatalogError.Unlocated (reference : String) (e : CatalogError) : Prop :=
  (∃ document, e = .unknownDocument document reference) ∨ e = .unresolvedPointer reference none

theorem CatalogError.Unlocated.isUnresolved {reference : String} {e : CatalogError}
    (h : e.Unlocated reference) : e.IsUnresolved := by
  obtain ⟨document, rfl⟩ | rfl := h
  · exact .inl ⟨document, reference, rfl⟩
  · exact .inr ⟨reference, none, rfl⟩

theorem Registry.resolve_error {registry : Registry} {r : String} {e : CatalogError}
    (h : registry.resolve r = .error e) : e.Unlocated r := by
  unfold resolve at h
  simp only at h
  split at h
  · cases h
    exact .inl ⟨_, rfl⟩
  · split at h
    · cases h
    · cases h
      exact .inr rfl

theorem Registry.expand_eq_ok {registry : Registry} {r : String} {copy : Schema}
    (h : registry.expand r = .ok copy) : ∃ target, registry.resolve r = .ok target ∧
      copy = target.qualify (Reference.parse r).document := by
  rw [expand] at h
  obtain ⟨target, htarget, h⟩ := bind_eq_ok h
  cases h
  exact ⟨target, htarget, rfl⟩

theorem Registry.expand_eq_error {registry : Registry} {r : String} {e : CatalogError}
    (h : registry.expand r = .error e) : registry.resolve r = .error e := by
  rw [expand] at h
  obtain h | ⟨_, _, h⟩ := bind_eq_error h
  · exact h
  · cases h

namespace Scope

variable {scope : Scope} {a b r : String} {e : CatalogError}

/-- `b` is the `$ref` of what `a` denotes. -/
def Alias (scope : Scope) (a b : String) : Prop :=
  ∃ target r, scope.registry.resolve a = .ok target ∧ target.reference = some r ∧
    b = Reference.qualify r (Reference.parse a).document

/-- References each of which is the `$ref` of what the one before denotes, where the last one has
occurred before. -/
def AliasLoop (scope : Scope) (chain : List String) : Prop :=
  ∃ front last, chain = front ++ [last] ∧ last ∈ front ∧ chain.IsChain scope.Alias

theorem isInlinable_eq_false (h : scope.isInlinable r = .ok false) :
    scope.options.isKept r = true ∨
      ∃ target, scope.registry.resolve r = .ok target ∧ target.isObject = true := by
  rw [isInlinable] at h
  split at h
  · rename_i hkept
    exact .inl hkept
  · obtain ⟨target, htarget, h⟩ := bind_eq_ok h
    have hobject : (!target.isObject) = false := Except.ok.inj h
    exact .inr ⟨target, htarget, by simpa using hobject⟩

theorem isInlinable_error (h : scope.isInlinable r = .error e) :
    scope.registry.resolve r = .error e := by
  rw [isInlinable] at h
  split at h
  · cases h
  · obtain h | ⟨_, _, h⟩ := bind_eq_error h
    · exact h
    · cases h

theorem followAliases_error {fuel : Nat} (front : List String) {current : String}
    (hchain : (front ++ [current]).IsChain scope.Alias)
    (h : scope.followAliases fuel (front ++ [current]) current = .error e) :
    ∃ chain, e = .cyclicReference chain ∧ scope.AliasLoop chain := by
  induction fuel generalizing front current with
  | zero => cases h
  | succ fuel ih =>
    unfold followAliases at h
    split at h
    · cases h
    · rename_i target htarget
      split at h
      · cases h
      · rename_i next hnext
        have hstep : scope.Alias current
            (Reference.qualify next (Reference.parse current).document) :=
          ⟨target, next, htarget, hnext, rfl⟩
        have hextended : ((front ++ [current]) ++
            [Reference.qualify next (Reference.parse current).document]).IsChain scope.Alias := by
          refine hchain.append (.singleton _) ?_
          intro x hx y hy
          simp at hx hy
          subst hx hy
          exact hstep
        simp only at h
        split at h
        · cases h
        · split at h
          · rename_i hcontains
            cases h
            exact ⟨_, rfl, _, _, rfl, List.contains_iff_mem.1 hcontains, hextended⟩
          · exact ih _ hextended h

theorem isRecursive_error (h : scope.isRecursive r = .error e) :
    ∃ chain, e = .cyclicReference chain ∧ scope.AliasLoop chain := by
  rw [isRecursive] at h
  obtain h | ⟨_, _, h⟩ := bind_eq_error h
  · exact followAliases_error [] (.singleton r) h
  · cases h

theorem isRecursive_ok {verdict : Bool} (h : scope.isRecursive r = .ok verdict) :
    verdict = true ↔ scope.Recursive r := by
  rw [isRecursive] at h
  obtain ⟨_, _, h⟩ := bind_eq_ok h
  cases h
  exact leadsBack_iff

/-- Inlining replaces the reference. -/
def Expandable (scope : Scope) (r : String) : Prop :=
  scope.isInlinable r = .ok true ∧ ¬ scope.Recursive r

/-- Inlining leaves the reference where it is. -/
def Stays (scope : Scope) (r : String) : Prop :=
  scope.isInlinable r = .ok false ∨ scope.isInlinable r = .ok true ∧ scope.isRecursive r = .ok true

theorem Stays.not_expandable (h : scope.Stays r) : ¬ scope.Expandable r := by
  intro hr
  cases h with
  | inl h =>
    rw [hr.1] at h
    cases h
  | inr h => exact hr.2 ((isRecursive_ok h.2).1 rfl)

def Known (scope : Scope) (known : Entries Bool) : Prop :=
  ∀ r verdict, known.lookup r = some verdict → scope.isRecursive r = .ok verdict

theorem known_nil : scope.Known [] := fun _ _ h => nomatch h

theorem verdictOf_ok {known known' : Entries Bool} {verdict : Bool} (hknown : scope.Known known)
    (h : scope.verdictOf known r = .ok (verdict, known')) :
    scope.isRecursive r = .ok verdict ∧ scope.Known known' := by
  rw [verdictOf] at h
  split at h
  · rename_i hlookup
    cases h
    exact ⟨hknown _ _ hlookup, hknown⟩
  · obtain ⟨found, hrecursive, h⟩ := bind_eq_ok h
    cases h
    refine ⟨hrecursive, fun r' verdict' hlookup => ?_⟩
    rw [Entries.lookup_put] at hlookup
    split at hlookup
    · rename_i heq
      cases hlookup
      rw [heq, hrecursive]
    · exact hknown _ _ hlookup

theorem verdictOf_error {known : Entries Bool} (h : scope.verdictOf known r = .error e) :
    ∃ chain, e = .cyclicReference chain ∧ scope.AliasLoop chain := by
  rw [verdictOf] at h
  split at h
  · cases h
  · obtain h | ⟨_, _, h⟩ := bind_eq_error h
    · exact isRecursive_error h
    · cases h

/-- How inlining fails: on a reference that denotes nothing, or on a loop of aliases. -/
def Fails (scope : Scope) (e : CatalogError) : Prop :=
  e.IsUnresolved ∨ ∃ chain, e = .cyclicReference chain ∧ scope.AliasLoop chain

/-- A path of references that inlining follows. -/
structure Path (scope : Scope) (path : List String) : Prop where
  mentions : path.IsChain scope.Mentions
  expandable : ∀ r ∈ path, scope.Expandable r

theorem Path.cons {path : List String} (h : scope.Path path) (hr : scope.Expandable r)
    (hhead : ∀ x ∈ path.head?, scope.Mentions r x) : scope.Path (r :: path) := by
  refine ⟨h.mentions.cons hhead, fun x hx => ?_⟩
  cases hx with
  | head => exact hr
  | tail _ hx => exact h.expandable x hx

/-- What inlining makes of a node, and the references that it replaces there, one after another. -/
inductive Unfolds (scope : Scope) : Schema → List String → Schema → Prop
  | stays {s} : (∀ r, s.reference = some r → scope.Stays r) → Unfolds scope s [] s
  | hop {s r copy rest t} : s.reference = some r → scope.Expandable r →
    scope.registry.expand r = .ok copy →
    Unfolds scope (s.clearReference.fillAbsent copy) rest t → Unfolds scope s (r :: rest) t

theorem mentions_of_expand {copy : Schema} (hcopy : scope.registry.expand r = .ok copy)
    (hb : b ∈ copy.references) : scope.Mentions r b := by
  obtain ⟨target, htarget, he⟩ := Registry.expand_eq_ok hcopy
  subst he
  obtain ⟨r', hr', he⟩ := Schema.mem_references_mapReferences.1 hb
  exact ⟨target, htarget, r', hr', he⟩

theorem mentions_of_hop {s copy : Schema} (hcopy : scope.registry.expand r = .ok copy)
    (h : (s.clearReference.fillAbsent copy).reference = some b) : scope.Mentions r b :=
  mentions_of_expand hcopy (Schema.mem_references_iff.2 ⟨copy, .refl copy, h⟩)

end Scope

namespace Schema

variable {scope : Scope} {path : String} {fuel : Nat} {node t : Schema} {st st' : InlineState}

/-- What inlining has done at a node: its verdicts are right, and the references that it noted are
those by which the node unfolded. -/
structure Inlined (scope : Scope) (st : InlineState) (node t : Schema) (st' : InlineState) :
    Prop where
  known : scope.Known st'.known
  unfolds : ∃ new, st'.inlined = st.inlined ++ new ∧ scope.Unfolds node new t

theorem Inlined.stays (hknown : scope.Known st'.known) (hinlined : st'.inlined = st.inlined)
    (hnode : ∀ r, node.reference = some r → scope.Stays r) :
    Inlined scope st node node st' := by
  refine ⟨hknown, [], ?_, .stays hnode⟩
  rw [hinlined, List.append_nil]

theorem Inlined.hop {r : String} {copy : Schema} {known : Entries Bool}
    (hr : node.reference = some r) (hexpandable : scope.Expandable r)
    (hcopy : scope.registry.expand r = .ok copy)
    (h : Inlined scope { known := known, inlined := st.inlined ++ [r] }
      (node.clearReference.fillAbsent copy) t st') : Inlined scope st node t st' := by
  obtain ⟨hknown, new, hnew, hunfolds⟩ := h
  refine ⟨hknown, r :: new, ?_, .hop hr hexpandable hcopy hunfolds⟩
  rw [hnew, List.append_assoc, List.singleton_append]

theorem length_lt_of_hop {r : String} {copy : Schema} (hr : node.reference = some r)
    (hexpandable : scope.Expandable r) (hcopy : scope.registry.expand r = .ok copy)
    (hfuel : ∀ p, scope.Path p → (∀ x ∈ p.head?, node.reference = some x) → p.length < fuel + 1)
    (p : List String) (hp : scope.Path p)
    (hhead : ∀ x ∈ p.head?, (node.clearReference.fillAbsent copy).reference = some x) :
    p.length < fuel := by
  have hlonger := hp.cons hexpandable fun x hx => Scope.mentions_of_hop hcopy (hhead x hx)
  have hlong := hfuel (r :: p) hlonger fun x hx => by cases hx; exact hr
  exact Nat.lt_of_succ_lt_succ hlong

/-- With fuel for every path from the reference of a node, inlining unfolds it. -/
theorem ensures_inlineNode (hknown : scope.Known st.known)
    (hfuel : ∀ p, scope.Path p → (∀ r ∈ p.head?, node.reference = some r) → p.length < fuel) :
    Ensures (inlineNode scope path fuel node) st (Inlined scope st node) scope.Fails := by
  induction fuel generalizing node st with
  | zero =>
    -- even the empty path asks for some fuel
    exact absurd (hfuel [] ⟨.nil, nofun⟩ nofun) (Nat.not_lt_zero _)
  | succ fuel ih =>
    unfold inlineNode
    cases hr : node.reference with
    | none =>
      have hnode (r : String) (h : node.reference = some r) : scope.Stays r :=
        nomatch hr.symm.trans h
      exact ensures_pure (.stays hknown rfl hnode)
    | some r =>
      have hnode (h : scope.Stays r) (r' : String) (hr' : node.reference = some r') :
          scope.Stays r' := by
        cases hr.symm.trans hr'
        exact h
      apply ensures_lift_bind
      · intro inlinable hat
        have hinlinable := Outcome.at_eq_ok hat
        cases inlinable with
        | false => exact ensures_pure (.stays hknown rfl (hnode (.inl hinlinable)))
        | true =>
          apply ensures_get_bind
          apply ensures_lift_bind
          · intro result hverdict
            obtain ⟨recursive, known⟩ := result
            obtain ⟨hrecursive, hknown'⟩ := Scope.verdictOf_ok hknown hverdict
            apply ensures_set_bind
            cases recursive with
            | true =>
              have hstays : scope.Stays r := .inr ⟨hinlinable, hrecursive⟩
              exact ensures_pure (.stays hknown' rfl (hnode hstays))
            | false =>
              have hexpandable : scope.Expandable r :=
                ⟨hinlinable, fun h => nomatch (Scope.isRecursive_ok hrecursive).2 h⟩
              apply ensures_lift_bind
              · intro copy hcopy
                apply ensures_modify_bind
                have hshorter := length_lt_of_hop hr hexpandable hcopy hfuel
                exact (ih hknown' hshorter).mono
                  (fun _ _ h => h.hop hr hexpandable hcopy) fun _ h => h
              · intro e he
                exact .inl (Registry.resolve_error (Registry.expand_eq_error he)).isUnresolved
          · intro e he
            exact .inr (Scope.verdictOf_error he)
      · intro e he
        obtain ⟨e', he', hlocate⟩ := Outcome.at_eq_error he
        have hunresolved := (Registry.resolve_error (Scope.isInlinable_error he')).isUnresolved
        exact .inl (hlocate ▸ hunresolved.locate path)

end Schema

end SchemaCatalog
