import SchemaCatalog.Proofs.Normal.Fixpoint
import SchemaCatalog.Proofs.Normal.AllOf
import SchemaCatalog.Proofs.Normal.OneOf
import SchemaCatalog.Normal.Basic

namespace SchemaCatalog

namespace Schema

/-- `Aside c s` says that `c` stands directly below `s`, but not as an alternative of it. -/
def Aside (c s : Schema) : Prop := Child c { s with oneOf := none }

theorem child_iff_aside {c s : Schema} :
    Child c s ↔ Aside c s ∨ ∃ list, s.oneOf = some list ∧ c ∈ list := by
  constructor
  · intro h
    cases h with
    | property hs hc => exact .inl (.property hs hc)
    | pattern hs hc => exact .inl (.pattern hs hc)
    | definition hs hc => exact .inl (.definition hs hc)
    | item hs => exact .inl (.item hs)
    | position hs hc => exact .inl (.position hs hc)
    | additional hs => exact .inl (.additional hs)
    | allOf hs hc => exact .inl (.allOf hs hc)
    | anyOf hs hc => exact .inl (.anyOf hs hc)
    | oneOf hs hc => exact .inr ⟨_, hs, hc⟩
    | not hs => exact .inl (.not hs)
  · intro h
    cases h with
    | inr h =>
      obtain ⟨list, hs, hc⟩ := h
      exact .oneOf hs hc
    | inl h =>
      cases h with
      | property hs hc => exact .property hs hc
      | pattern hs hc => exact .pattern hs hc
      | definition hs hc => exact .definition hs hc
      | item hs => exact .item hs
      | position hs hc => exact .position hs hc
      | additional hs => exact .additional hs
      | allOf hs hc => exact .allOf hs hc
      | anyOf hs hc => exact .anyOf hs hc
      | oneOf hs hc => cases hs
      | not hs => exact .not hs

theorem Alike.aside {R : Schema → Schema → Prop} {s t c : Schema} (h : Alike R s t)
    (hc : Aside c s) : ∃ c', Aside c' t ∧ R c c' := by
  have hcleared : Alike R { s with oneOf := none } { t with oneOf := none } :=
    { h with oneOf := .none }
  exact hcleared.child hc

theorem Alike.isChoice {R : Schema → Schema → Prop} {s t : Schema} (h : Alike R s t) :
    s.isChoice = t.isChoice := by
  unfold Schema.isChoice
  have honeOf := h.oneOf
  generalize s.oneOf = a at honeOf
  generalize t.oneOf = b at honeOf
  cases honeOf with
  | none => rfl
  | some h => cases h <;> rfl

end Schema

namespace Scope

open Schema

/-- The reference of the node, if it has one, is not replaced. -/
def Stands (scope : Scope) (s : Schema) : Prop := ∀ r, s.reference = some r → scope.Stays r

/-- Replacing references in a schema leaves an `allOf` list. What stands at and below an alternative
counts only through its own alternatives if it has any, since these take its place. -/
inductive Reveals (scope : Scope) : (member : Bool) → Schema → Prop
  | inlined {member s r copy} : s.reference = some r → scope.Expandable r →
    scope.registry.expand r = .ok copy →
    Reveals scope member (s.clearReference.fillAbsent copy) → Reveals scope member s
  | own {member s} : scope.Stands s → (member = true → s.isChoice = false) →
    s.allOf.isSome = true → Reveals scope member s
  | aside {member s c} : scope.Stands s → (member = true → s.isChoice = false) → Aside c s →
    Reveals scope false c → Reveals scope member s
  | alternative {member s c list} : scope.Stands s → s.oneOf = some list → c ∈ list →
    Reveals scope true c → Reveals scope member s

def Same (scope : Scope) (s t : Schema) : Prop :=
  ∀ member, scope.Reveals member s ↔ scope.Reveals member t

variable {scope : Scope} {member : Bool} {s t : Schema}

theorem Same.refl (s : Schema) : scope.Same s s := fun _ => Iff.rfl

theorem Same.trans {u : Schema} (h : scope.Same s t) (h' : scope.Same t u) : scope.Same s u :=
  fun member => (h member).trans (h' member)

theorem Stands.not_expandable {r : String} (h : scope.Stands s) (hr : s.reference = some r) :
    ¬ scope.Expandable r :=
  (h r hr).not_expandable

theorem Reveals.alike (h : scope.Reveals member s) (halike : Alike scope.Same s t) :
    scope.Reveals member t := by
  have hstands {s t : Schema} (halike : Alike scope.Same s t) (h : scope.Stands s) :
      scope.Stands t := by
    rw [Stands, ← halike.reference]
    exact h
  induction h generalizing t with
  | inlined hr hexpandable hcopy _ ih =>
    -- the same copy fills both nodes, so they are alike again
    refine .inlined (halike.reference ▸ hr) hexpandable hcopy (ih ?_)
    exact halike.clearReference.fillAbsent Same.refl _
  | own hs hchoice hallOf =>
    refine .own (hstands halike hs) (halike.isChoice ▸ hchoice) ?_
    rw [← optionRel_isSome halike.allOf]
    exact hallOf
  | aside hs hchoice hc hreveals _ =>
    obtain ⟨c', hc', hsame⟩ := halike.aside hc
    exact .aside (hstands halike hs) (halike.isChoice ▸ hchoice) hc' ((hsame false).1 hreveals)
  | alternative hs hlist hc hreveals _ =>
    obtain ⟨list', c', hlist', hc', hsame⟩ := child_of_list halike.oneOf hlist hc
    exact .alternative (hstands halike hs) hlist' hc' ((hsame true).1 hreveals)

theorem same_of_alike (h : Alike scope.Same s t) : scope.Same s t := by
  have hflip : Alike scope.Same t s := h.flip.mono fun _ _ h member => (h member).symm
  exact fun _ => ⟨fun hs => hs.alike h, fun ht => ht.alike hflip⟩

theorem Unfolds.same {new : List String} (h : scope.Unfolds s new t) : scope.Same s t := by
  induction h with
  | stays _ => exact Same.refl _
  | @hop s r copy rest t hr hexpandable hcopy _ ih =>
    refine Same.trans (fun member => ⟨fun h => ?_, .inlined hr hexpandable hcopy⟩) ih
    cases h with
    | inlined hr' _ hcopy' h =>
      cases hr.symm.trans hr'
      cases hcopy.symm.trans hcopy'
      exact h
    | own hs _ _ => exact absurd hexpandable (hs.not_expandable hr)
    | aside hs _ _ _ => exact absurd hexpandable (hs.not_expandable hr)
    | alternative hs _ _ _ => exact absurd hexpandable (hs.not_expandable hr)

theorem reveals_iff (hs : scope.Stands s) : scope.Reveals member s ↔
    ((member = true → s.isChoice = false) ∧
      (s.allOf.isSome = true ∨ ∃ c, Aside c s ∧ scope.Reveals false c)) ∨
    ∃ list c, s.oneOf = some list ∧ c ∈ list ∧ scope.Reveals true c := by
  constructor
  · intro h
    cases h with
    | inlined hr hexpandable _ _ => exact absurd hexpandable (hs.not_expandable hr)
    | own _ hchoice hallOf => exact .inl ⟨hchoice, .inl hallOf⟩
    | aside _ hchoice hc h => exact .inl ⟨hchoice, .inr ⟨_, hc, h⟩⟩
    | alternative _ hlist hc h => exact .inr ⟨_, _, hlist, hc, h⟩
  · intro h
    obtain ⟨hchoice, hallOf | ⟨c, hc, h⟩⟩ | ⟨list, c, hlist, hc, h⟩ := h
    · exact .own hs hchoice hallOf
    · exact .aside hs hchoice hc h
    · exact .alternative hs hlist hc h

end Scope

namespace Schema

variable {scope : Scope}

theorem respected_same : Respected scope scope.Same where
  trans := .trans
  alike := Scope.same_of_alike
  unfolds := Scope.Unfolds.same

theorem inlineFrom_same {known : Entries Bool} {last : List String} {passed left passes : Nat}
    {root tree : Schema} (hknown : scope.Known known)
    (h : inlineFrom scope known last passed left root = .ok (tree, passes)) :
    scope.Same root tree :=
  respected_same.inlineFrom hknown h

def Carries (s : Schema) : Prop := ∃ n, Within n s ∧ n.allOf.isSome = true

theorem carries_iff {s : Schema} :
    Carries s ↔ s.allOf.isSome = true ∨ ∃ c, Child c s ∧ Carries c := by
  constructor
  · intro h
    obtain ⟨n, hn, hallOf⟩ := h
    cases within_iff.1 hn with
    | inl hn => exact .inl (hn ▸ hallOf)
    | inr hn =>
      obtain ⟨c, hc, hn⟩ := hn
      exact .inr ⟨c, hc, n, hn, hallOf⟩
  · intro h
    cases h with
    | inl h => exact ⟨s, .refl s, h⟩
    | inr h =>
      obtain ⟨c, hc, n, hn, hallOf⟩ := h
      exact ⟨n, hn.child hc, hallOf⟩

/-- The node with the alternatives of its alternatives in their place. -/
def splice (s : Schema) : Schema :=
  match s.oneOf with
  | none => s
  | some members => { s with oneOf := some (alternativesOf members) }

def CarriesAside (s : Schema) : Prop := s.allOf.isSome = true ∨ ∃ c, Aside c s ∧ Carries c

/-- There is a list in an alternative, or in what takes its place. -/
def CarriesAmong (s : Schema) : Prop :=
  ∃ members, s.oneOf = some members ∧ ∃ a ∈ alternativesOf members, Carries a

theorem isChoice_splice (s : Schema) : s.splice.isChoice = s.isChoice := by
  unfold splice
  split
  · rfl
  · rename_i members hmembers
    rw [Bool.eq_iff_iff, isChoice_iff, isChoice_iff, hmembers]
    simp [alternativesOf_eq_nil]

theorem carries_splice {s : Schema} : Carries s.splice ↔ CarriesAside s ∨ CarriesAmong s := by
  have hchild (t : Schema) : Carries t ↔
      CarriesAside t ∨ ∃ list, t.oneOf = some list ∧ ∃ c ∈ list, Carries c := by
    rw [carries_iff, CarriesAside, or_assoc]
    simp only [child_iff_aside, or_and_right, exists_or]
    grind
  unfold splice
  split
  · rename_i hnone
    rw [hchild, CarriesAmong, hnone]
    simp
  · rename_i members hmembers
    rw [hchild, CarriesAmong, hmembers]
    exact or_congr Iff.rfl (by simp)

theorem alternatives_splice {s : Schema} (h : s.isChoice = true) :
    (∃ a ∈ alternatives s.splice, Carries a) ↔ CarriesAmong s := by
  obtain ⟨members, hmembers, hsome⟩ := isChoice_iff.1 h
  have hsplice : s.splice.oneOf = some (alternativesOf members) := by
    rw [splice, hmembers]
  rw [alternatives_of_choice hsplice (mt alternativesOf_eq_nil.1 hsome),
    alternativesOf_alternativesOf, CarriesAmong, hmembers]
  simp

def shown (member : Bool) (s : Schema) : List Schema := if member then alternatives s else [s]

/-- What flattening has made of a schema: it carries a list if one was revealed. -/
structure Flattened (scope : Scope) (s t : Schema) : Prop where
  choice : s.isChoice = t.isChoice
  reveals : ∀ member, scope.Reveals member s ↔ ∃ a ∈ shown member t, Carries a

theorem Flattened.carries {s t : Schema} (h : Flattened scope s t) :
    scope.Reveals false s ↔ Carries t := by
  simp [h.reveals, shown]

theorem carriesAside_alike {s t : Schema} (h : Alike (Flattened scope) s t) :
    (s.allOf.isSome = true ∨ ∃ c, Aside c s ∧ scope.Reveals false c) ↔ CarriesAside t := by
  rw [CarriesAside, optionRel_isSome h.allOf]
  refine or_congr Iff.rfl ⟨fun hs => ?_, fun ht => ?_⟩
  · obtain ⟨c, hc, hreveals⟩ := hs
    obtain ⟨c', hc', hflat⟩ := h.aside hc
    exact ⟨c', hc', hflat.carries.1 hreveals⟩
  · obtain ⟨c', hc', hcarries⟩ := ht
    obtain ⟨c, hc, hflat⟩ := h.flip.aside hc'
    exact ⟨c, hc, hflat.carries.2 hcarries⟩

theorem carriesAmong_alike {s t : Schema} (h : Alike (Flattened scope) s t) :
    (∃ list c, s.oneOf = some list ∧ c ∈ list ∧ scope.Reveals true c) ↔ CarriesAmong t := by
  constructor
  · intro hs
    obtain ⟨list, c, hlist, hc, hreveals⟩ := hs
    obtain ⟨list', c', hlist', hc', hflat⟩ := child_of_list h.oneOf hlist hc
    obtain ⟨a, ha, hcarries⟩ := (hflat.reveals true).1 hreveals
    exact ⟨list', hlist', a, mem_alternativesOf.2 ⟨c', hc', ha⟩, hcarries⟩
  · intro ht
    obtain ⟨list', hlist', a, ha, hcarries⟩ := ht
    obtain ⟨c', hc', ha⟩ := mem_alternativesOf.1 ha
    obtain ⟨list, c, hlist, hc, hflat⟩ := child_of_list h.flip.oneOf hlist' hc'
    exact ⟨list, c, hlist, hc, (hflat.reveals true).2 ⟨a, ha, hcarries⟩⟩

theorem flattened_splice {s t : Schema} (hs : scope.Stands s) (h : Alike (Flattened scope) s t) :
    Flattened scope s t.splice := by
  refine ⟨h.isChoice.trans (isChoice_splice t).symm, fun member => ?_⟩
  rw [Scope.reveals_iff hs, carriesAside_alike h, carriesAmong_alike h]
  cases hchoice : t.isChoice with
  | false =>
    have hshown : shown member t.splice = [t.splice] := by
      cases member with
      | false => rfl
      | true => exact alternatives_of_not_choice ((isChoice_splice t).trans hchoice)
    rw [hshown]
    simp [carries_splice, h.isChoice, hchoice]
  | true =>
    -- an alternative that is a choice gives way to its own alternatives
    cases member with
    | false => simp [shown, carries_splice]
    | true =>
      rw [shown, if_pos rfl, alternatives_splice hchoice]
      simp [h.isChoice, hchoice]

theorem visits_flattenNode {root : Schema} (hroot : ∀ r ∈ root.references, scope.Stays r) :
    Visits (fun _ node => flattenNode node) (Within · root) (fun _ => True)
      (fun _ => Flattened scope) (fun _ => True) where
  below h hc := h.below hc
  node := by
    intro path s t st hs _ halike
    have hnode : Flattened scope s t.splice := by
      refine flattened_splice (fun r hr => hroot r ?_) halike
      exact references_within hs (mem_references_cases.2 (.inl hr))
    unfold splice at hnode
    unfold flattenNode
    cases hmembers : t.oneOf with
    | none =>
      rw [hmembers] at hnode
      exact ensures_pure ⟨⟨trivial, fun _ _ h => h⟩, hnode⟩
    | some members =>
      rw [hmembers] at hnode
      dsimp only
      split
      · exact ⟨⟨trivial, fun _ _ h => h⟩, hnode⟩
      · exact ⟨⟨trivial, fun _ _ h => h⟩, hnode⟩

theorem carries_flattenOneOf {root : Schema} (hroot : ∀ r ∈ root.references, scope.Stays r) :
    Carries root.flattenOneOf.1 ↔ scope.Reveals false root :=
  (((visits_flattenNode hroot).walk "#" root 0 (.refl root) trivial).of_ok rfl).2.carries.symm

theorem carries_iff_nodes {s : Schema} :
    ¬ Carries s ↔ ∀ path node, (path, node) ∈ s.nodes "#" → node.allOf = none := by
  constructor
  · intro h path node hnode
    have hwithin := mem_nodes_iff.1 ⟨path, hnode⟩
    cases hallOf : node.allOf with
    | none => rfl
    | some members => exact absurd ⟨node, hwithin, by rw [hallOf]; rfl⟩ h
  · intro h hcarries
    obtain ⟨n, hn, hallOf⟩ := hcarries
    obtain ⟨path, hnode⟩ := mem_nodes_iff.2 hn
    rw [h path n hnode] at hallOf
    cases hallOf

/-- The normal form comes from the merged schema by inlining until all references stay, and
flattening. -/
theorem normalize_eq_ok {root normal : Schema} (h : root.normalize scope = .ok normal) :
    ∃ expanded passes merged count, root.inlineReferences scope = .ok (expanded, passes) ∧
      expanded.mergeAllOf scope.registry = .ok (merged, count) ∧
      ∃ tree, scope.Same merged tree ∧ (∀ r ∈ tree.references, scope.Stays r) ∧
        normal = tree.flattenOneOf.1 := by
  unfold normalize at h
  obtain ⟨⟨expanded, passes⟩, hexpanded, h⟩ := bind_eq_ok h
  obtain ⟨⟨merged, count⟩, hmerged, h⟩ := bind_eq_ok h
  refine ⟨expanded, passes, merged, count, hexpanded, hmerged, ?_⟩
  dsimp only at h
  split at h
  · obtain ⟨⟨tree, passes'⟩, hagain, h⟩ := bind_eq_ok h
    cases h
    exact ⟨tree, inlineFrom_same Scope.known_nil hagain,
      (inlineFrom_stays Scope.known_nil hagain).1, rfl⟩
  · rename_i hnone
    cases h
    have heq := (mergeAllOf_merged hmerged).unchanged (Nat.eq_zero_of_not_pos hnone)
    exact ⟨merged, Scope.Same.refl merged,
      heq ▸ (inlineFrom_stays Scope.known_nil hexpanded).1, rfl⟩

theorem AllOfFree.not_carries {s : Schema} (h : AllOfFree s) : ¬ Carries s := by
  intro hcarries
  obtain ⟨n, hn, hallOf⟩ := hcarries
  rw [h n hn] at hallOf
  cases hallOf

/-- The merged schema has no `allOf` list, and the normal form has none if and only if the merged
schema reveals none when its references are replaced. -/
theorem normalize_allOf {root normal : Schema} (h : root.normalize scope = .ok normal) :
    ∃ expanded passes merged count, root.inlineReferences scope = .ok (expanded, passes) ∧
      expanded.mergeAllOf scope.registry = .ok (merged, count) ∧
      (∀ path node, (path, node) ∈ merged.nodes "#" → node.allOf = none) ∧
      ((∀ path node, (path, node) ∈ normal.nodes "#" → node.allOf = none) ↔
        ¬ scope.Reveals false merged) := by
  obtain ⟨expanded, passes, merged, count, hexpanded, hmerged, tree, hsame, hstays, hnormal⟩ :=
    normalize_eq_ok h
  refine ⟨expanded, passes, merged, count, hexpanded, hmerged, ?_, ?_⟩
  · exact carries_iff_nodes.1 (mergeAllOf_merged hmerged).free.not_carries
  · rw [← carries_iff_nodes, hnormal, carries_flattenOneOf hstays, hsame false]

def composed : Schema where
  definitions := some [("Code", { allOf := some [.ofType "string"] }),
    ("Base", { properties := some [("x", .ofReference "#/definitions/Code")] }),
    ("Pet", { allOf := some [.ofReference "#/definitions/Base"] })]

def composedScope : Scope where
  registry := ({} : Registry).registerRoot composed

/-- The property that the last definition takes over from the second still has the list of the
first. -/
theorem normalize_composed :
    ∃ normal node, composed.normalize composedScope = .ok normal ∧
      ("#/definitions/Pet/properties/x", node) ∈ normal.nodes "#" ∧ node.allOf.isSome = true := by
  have hlist : (composed.normalize composedScope).toOption.map (fun normal =>
      (normal.nodes "#").any fun entry =>
        entry.1 == "#/definitions/Pet/properties/x" && entry.2.allOf.isSome) = some true := by
    decide +kernel
  cases h : composed.normalize composedScope with
  | error e =>
    rw [h] at hlist
    cases hlist
  | ok normal =>
    rw [h] at hlist
    obtain ⟨⟨path, node⟩, hnode, hboth⟩ := List.any_eq_true.1 (Option.some.inj hlist)
    rw [Bool.and_eq_true, beq_iff_eq] at hboth
    exact ⟨normal, node, rfl, hboth.1 ▸ hnode, hboth.2⟩

theorem normalize_allOf_composed :
    ∃ merged, (∀ path node, (path, node) ∈ merged.nodes "#" → node.allOf = none) ∧
      composedScope.Reveals false merged := by
  obtain ⟨normal, node, h, hnode, hallOf⟩ := normalize_composed
  obtain ⟨_, _, merged, _, _, _, hfree, hexact⟩ := normalize_allOf h
  refine ⟨merged, hfree, Classical.not_not.1 fun hnone => ?_⟩
  rw [hexact.2 hnone _ node hnode] at hallOf
  cases hallOf

/-- Normal forms can have `allOf` lists. -/
theorem exists_normalize_allOf :
    ¬ ∀ (scope : Scope) (root normal : Schema), root.normalize scope = .ok normal →
      ∀ path node, (path, node) ∈ normal.nodes "#" → node.allOf = none := by
  intro hall
  obtain ⟨normal, node, h, hnode, hallOf⟩ := normalize_composed
  rw [hall _ _ _ h _ node hnode] at hallOf
  cases hallOf

end Schema

end SchemaCatalog
