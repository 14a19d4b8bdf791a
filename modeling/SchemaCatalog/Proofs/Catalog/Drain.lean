import SchemaCatalog.Proofs.Catalog.Fields
import SchemaCatalog.Catalog.Drain

namespace SchemaCatalog

namespace Catalog

variable {c : Catalog} {name : String}

theorem hasType_iff : c.hasType name = true ↔ ∃ t ∈ c.types, t.name = name := by
  simp [hasType, type?]

theorem mem_addType {type t : CatalogType} (h : t ∈ (c.addType type).types) :
    t ∈ c.types ∨ t = type := by
  rw [addType] at h
  split at h
  · exact .inl h
  · simpa using h

theorem hasType_addType {type : CatalogType} :
    (c.addType type).hasType name = true ↔ c.hasType name = true ∨ name = type.name := by
  rw [addType]
  split
  · rename_i htype
    refine ⟨.inl, fun h => ?_⟩
    cases h with
    | inl h => exact h
    | inr h => exact h ▸ htype
  · simp only [hasType_iff, List.mem_append, List.mem_singleton]
    constructor
    · intro h
      obtain ⟨t, ht, hname⟩ := h
      refine ht.imp (fun ht => ⟨t, ht, hname⟩) fun ht => ?_
      rw [← hname, ht]
    · intro h
      cases h with
      | inl h =>
        obtain ⟨t, ht, hname⟩ := h
        exact ⟨t, .inl ht, hname⟩
      | inr h => exact ⟨type, .inr rfl, h.symm⟩

def typeNames (c : Catalog) : List String := c.types.map (·.name)

theorem nodup_addType {type : CatalogType} (h : c.typeNames.Nodup) :
    (c.addType type).typeNames.Nodup := by
  rw [addType]
  split
  · exact h
  · rename_i hfree
    rw [typeNames, List.map_append]
    refine List.nodup_append.2 ⟨h, by simp, fun x hx y hy he => hfree ?_⟩
    obtain ⟨t, ht, hname⟩ := List.mem_map.1 hx
    refine hasType_iff.2 ⟨t, ht, ?_⟩
    rw [hname, he, List.mem_singleton.1 hy]

theorem methods_addType (c : Catalog) (type : CatalogType) :
    (c.addType type).methods = c.methods := by
  rw [addType]
  split <;> rfl

end Catalog

def Method.typeNames (m : Method) : List String := m.parametersType.toList ++ m.responsesType.toList

/-- What holds of a construction between any two of its steps, while the types of the names in
`building` are being built. -/
structure Progress.Sound (building : List String) (p : Progress) : Prop where
  /-- What was requested is there, still waits or is being built. -/
  settled : ∀ name, p.requested.has name = true →
    p.catalog.hasType name = true ∨ (∃ r ∈ p.pending, r.name = name) ∨ name ∈ building
  /-- What fields refer to is there or was requested. -/
  covered : ∀ t ∈ p.catalog.types, p.Covers (Builder.typeTargets t)
  distinct : p.catalog.typeNames.Nodup
  methods : ∀ m ∈ p.catalog.methods, ∀ name ∈ m.typeNames, p.catalog.hasType name = true

namespace Progress

variable {building : List String} {p p' : Progress}

theorem sound_start : ({} : Progress).Sound [] :=
  ⟨nofun, nofun, List.nodup_nil, nofun⟩

theorem Sound.asks (h : p.Sound building) (hasks : p.Asks p') : p'.Sound building := by
  refine ⟨fun name hname => ?_, ?_, ?_, ?_⟩
  · rw [hasks.catalog]
    cases hasks.fresh name hname with
    | inr hname => exact .inr (.inl hname)
    | inl hname =>
      obtain h | ⟨r, hr, hname⟩ | h := h.settled name hname
      · exact .inl h
      · exact .inr (.inl ⟨r, hasks.pending hr, hname⟩)
      · exact .inr (.inr h)
  · rw [hasks.catalog]
    exact fun t ht => hasks.covers (h.covered t ht)
  · rw [hasks.catalog]
    exact h.distinct
  · rw [hasks.catalog]
    exact h.methods

theorem Sound.next {r : Request} {rest : List Request} (h : p.Sound [])
    (hpending : p.pending = r :: rest) :
    ({ p with pending := rest } : Progress).Sound [r.name] := by
  refine ⟨fun name hname => ?_, h.covered, h.distinct, h.methods⟩
  obtain h | ⟨r', hr, hname⟩ | h := h.settled name hname
  · exact .inl h
  · rw [hpending] at hr
    cases hr with
    | head => exact .inr (.inr (hname ▸ List.mem_cons_self))
    | tail _ hr => exact .inr (.inl ⟨r', hr, hname⟩)
  · cases h

def addType (p : Progress) (type : CatalogType) : Progress :=
  { p with catalog := p.catalog.addType type }

theorem Covers.addType {refs : List TypeRef} (h : p.Covers refs) (type : CatalogType) :
    (p.addType type).Covers refs :=
  fun name hname => (h name hname).imp (fun h => Catalog.hasType_addType.2 (.inl h)) fun h => h

theorem Sound.addType {type : CatalogType} (h : p.Sound building)
    (hcovers : p.Covers (Builder.typeTargets type)) (hbuilding : building ⊆ [type.name]) :
    (p.addType type).Sound [] where
  settled name hname := by
    obtain h | h | h := h.settled name hname
    · exact .inl (Catalog.hasType_addType.2 (.inl h))
    · exact .inr (.inl h)
    · exact .inl (Catalog.hasType_addType.2 (.inr (List.mem_singleton.1 (hbuilding h))))
  covered t ht := by
    cases Catalog.mem_addType ht with
    | inl ht => exact (h.covered t ht).addType type
    | inr ht => exact ht ▸ hcovers.addType type
  distinct := Catalog.nodup_addType h.distinct
  methods m hm name hname := by
    rw [Progress.addType, Catalog.methods_addType] at hm
    exact Catalog.hasType_addType.2 (.inl (h.methods m hm name hname))

end Progress

namespace Builder

variable (b : Builder)

theorem ensures_last {α β : Type} {x : BuildM α} {f : α → BuildM β} {p : Progress}
    {post : β → Progress → Prop} (hf : ∀ a p', Ensures (f a) p' post fun _ => True) :
    Ensures (x >>= f) p post fun _ => True := by
  have hx : Ensures x p (fun _ _ => True) fun _ => True := by
    rw [Ensures]
    split <;> trivial
  exact ensures_bind hx fun a p' _ => hf a p'

theorem ensures_buildType_name (r : Request) (p : Progress) :
    Ensures (b.buildType r) p (fun t _ => t.name = r.name) fun _ => True := by
  have hdescribed {x : BuildM CatalogType}
      (hx : Ensures x p (fun t _ => t.name = r.name) fun _ => True) :
      Ensures (do return { ← x with description := r.schema.keywords.description }) p
        (fun t _ => t.name = r.name) fun _ => True :=
    ensures_bind hx fun _ _ h => ensures_pure h
  unfold buildType
  match formOf r with
  | .choice => exact hdescribed (ensures_last fun _ _ => ensures_pure rfl)
  | .object =>
    refine hdescribed (ensures_last fun _ _ => ensures_last fun _ _ => ?_)
    exact ensures_last fun _ _ => ensures_pure rfl
  | .pair =>
    refine hdescribed ?_
    unfold buildPair
    dsimp only
    split
    · exact ensures_last fun _ _ => ensures_pure rfl
    · exact ensures_last fun _ _ => ensures_pure rfl
  | .alias => exact hdescribed (ensures_last fun _ _ => ensures_pure rfl)

theorem ensures_buildNext {p : Progress} {r : Request} {rest : List Request} (h : p.Sound [])
    (hpending : p.pending = r :: rest) :
    Ensures (b.buildNext r rest) p (fun _ p' => p'.Sound []) fun _ => True := by
  unfold buildNext
  apply ensures_modify_bind
  have hbuilt := (asksFor_buildType b r _ (Progress.covers_nil { p with pending := rest })).and
    (ensures_buildType_name b r _)
  apply ensures_bind hbuilt.well
  intro type p' h'
  obtain ⟨⟨hasks, hcovers⟩, hname⟩ := h'
  have hsound := (h.next hpending).asks hasks
  exact ensures_modify (hsound.addType hcovers (hname ▸ List.Subset.refl _))

theorem ensures_endless {p : Progress} {post : Unit → Progress → Prop} :
    Ensures endless p post fun _ => True :=
  ensures_last fun _ _ => ensures_throw trivial

def Drained (p : Progress) : Prop := p.Sound [] ∧ p.pending = []

theorem ensures_drainSteps {again : BuildM Unit}
    (hagain : ∀ p : Progress, p.Sound [] →
      Ensures again p (fun _ p' => Drained p') fun _ => True)
    (steps : Nat) {p : Progress} (h : p.Sound []) :
    Ensures (b.drainSteps again steps) p (fun _ p' => Drained p') fun _ => True := by
  induction steps generalizing p with
  | zero => exact ensures_endless
  | succ steps ih =>
    unfold drainSteps
    apply ensures_get_bind
    split
    · rename_i hnone
      exact ensures_pure ⟨h, hnone⟩
    · rename_i r rest hpending
      apply ensures_bind (ensures_buildNext b h hpending)
      intro _ p' h'
      apply ensures_get_bind
      split
      · exact ih h'
      · exact hagain p' h'

theorem ensures_drainRounds (rounds : Nat) {p : Progress} (h : p.Sound []) :
    Ensures (b.drainRounds rounds) p (fun _ p' => Drained p') fun _ => True := by
  induction rounds generalizing p with
  | zero => exact ensures_endless
  | succ rounds ih =>
    unfold drainRounds
    apply ensures_get_bind
    exact ensures_drainSteps b (fun _ => ih) _ h

theorem ensures_drain {p : Progress} (h : p.Sound []) :
    Ensures b.drain p (fun _ p' => Drained p') fun _ => True :=
  ensures_get_bind (ensures_drainRounds b _ h)

end Builder

end SchemaCatalog
