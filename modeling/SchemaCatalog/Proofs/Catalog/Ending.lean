import SchemaCatalog.Proofs.Catalog.Building
import SchemaCatalog.Proofs.Catalog.Drain
import SchemaCatalog.Proofs.Normal.Compositional

namespace SchemaCatalog

def Request.costs (requests : List Request) : Nat := (requests.map (·.schema.cost)).sum

namespace Builder

/-- The name of the type that a reference stands for. -/
def nameOf (b : Builder) (reference : String) : String :=
  b.referenceName (Reference.parse reference).name

variable (b : Builder)

/-- How many of the references have names that nothing answers to. -/
def unanswered (refs : List String) (p : Progress) : Nat :=
  refs.countP fun r => !p.catalog.hasType (b.nameOf r) && !p.requested.has (b.nameOf r)

/-- The progress that finding fields can make, at a cost, where the references of requested schemas
satisfy `Q`. Each reference that is followed is one of `refs`. -/
structure Advances (Q : String → Prop) (refs : List String) (n : Nat) (p p' : Progress) :
    Prop where
  followed : p.followed ≤ p'.followed
  answers : ∀ name, p.Answers name → p'.Answers name
  unanswered : p'.followed + b.unanswered refs p' ≤ p.followed + b.unanswered refs p
  pending : ∃ new, p'.pending = p.pending ++ new ∧ (∀ r ∈ new, r.schema.Inside Q) ∧
    (p'.followed = p.followed → Request.costs new ≤ n)

variable {b} {Q : String → Prop} {refs : List String} {m n : Nat} {p p' p'' : Progress}

theorem not_answered_of_later (h : ∀ name, p.Answers name → p'.Answers name) (r : String)
    (hr : (!p'.catalog.hasType (b.nameOf r) && !p'.requested.has (b.nameOf r)) = true) :
    (!p.catalog.hasType (b.nameOf r) && !p.requested.has (b.nameOf r)) = true := by
  have hname := h (b.nameOf r)
  simp only [Progress.Answers] at hname
  grind

theorem unanswered_le (h : ∀ name, p.Answers name → p'.Answers name) :
    b.unanswered refs p' ≤ b.unanswered refs p :=
  List.countP_mono_left fun r _ hr => not_answered_of_later h r hr

theorem unanswered_lt {r : String} (h : ∀ name, p.Answers name → p'.Answers name) (hr : r ∈ refs)
    (hbefore : ¬ p.Answers (b.nameOf r)) (hafter : p'.Answers (b.nameOf r)) :
    b.unanswered refs p' < b.unanswered refs p := by
  refine countP_lt_of_mem (not_answered_of_later h) hr ?_ ?_
  · simpa [Progress.Answers] using hbefore
  · rw [← Bool.not_eq_true]
    rcases hafter with hafter | hafter
    · simp [hafter]
    · simp [hafter]

theorem Advances.refl (p : Progress) : b.Advances Q refs 0 p p :=
  ⟨Nat.le_refl _, fun _ h => h, Nat.le_refl _, [], by simp [Request.costs]⟩

theorem Advances.trans (h : b.Advances Q refs m p p') (h' : b.Advances Q refs n p' p'') :
    b.Advances Q refs (m + n) p p'' := by
  obtain ⟨new, hnew, hinside, hcosts⟩ := h.pending
  obtain ⟨new', hnew', hinside', hcosts'⟩ := h'.pending
  refine ⟨h.followed.trans h'.followed, fun name hname => h'.answers name (h.answers name hname),
    h'.unanswered.trans h.unanswered, new ++ new', ?_, fun r hr => ?_, fun hfollowed => ?_⟩
  · rw [hnew', hnew, List.append_assoc]
  · exact (List.mem_append.1 hr).elim (hinside r) (hinside' r)
  · have h₁ := h.followed
    have h₂ := h'.followed
    have hm := hcosts (by omega)
    have hn := hcosts' (by omega)
    rw [Request.costs, List.map_append, List.sum_append]
    exact Nat.add_le_add hm hn

theorem Advances.mono (hmn : m ≤ n) (h : b.Advances Q refs m p p') : b.Advances Q refs n p p' := by
  obtain ⟨new, hnew, hinside, hcosts⟩ := h.pending
  exact ⟨h.followed, h.answers, h.unanswered, new, hnew, hinside,
    fun hfollowed => (hcosts hfollowed).trans hmn⟩

theorem advances_record (d : Diagnostic) (p : Progress) :
    b.Advances Q refs 0 p { p with diagnostics := p.diagnostics ++ [d] } :=
  ⟨Nat.le_refl _, fun _ h => h, Nat.le_refl _, [], by simp [Request.costs]⟩

theorem has_requested {r : Request} {name : String} :
    (p.requested ++ [(r.name, r.schema)]).has name = true ↔
      p.requested.has name = true ∨ name = r.name := by
  simp [Entries.has, List.lookup_append, Option.isSome_or, Entries.lookup_cons]

theorem advances_request {r : Request} (hr : r.schema.Inside Q) (p : Progress) :
    Ensures (request r) p (fun _ p' => b.Advances Q refs r.schema.cost p p') fun _ => False := by
  refine (ensures_request r p).mono (fun _ p' hp' => ?_) fun _ he => he
  cases hp'.2 with
  | known _ _ => exact (Advances.refl p).mono (Nat.zero_le _)
  | collides _ _ => exact (advances_record _ p).mono (Nat.zero_le _)
  | enters _ =>
    have hanswers (name : String) (hname : p.Answers name) :
        p.catalog.hasType name = true ∨
          (p.requested ++ [(r.name, r.schema)]).has name = true :=
      hname.imp_right fun hname => has_requested.2 (.inl hname)
    refine ⟨Nat.le_refl _, hanswers, ?_, [r], rfl, ?_, fun _ => ?_⟩
    · exact Nat.add_le_add_left (unanswered_le hanswers) _
    · simpa using hr
    · simp [Request.costs]

theorem ensures_request_fresh {r : Request} (h : ¬ p.Answers r.name) :
    Ensures (request r) p (fun type p' => type = .named r.name ∧ p' = p.enter r)
      fun _ => False := by
  refine (ensures_request r p).mono (fun type p' hp' => ⟨hp'.1, ?_⟩) fun _ he => he
  cases hp'.2 with
  | known hknown _ => exact absurd (Progress.answers_of_lookup hknown) h
  | collides hanswers _ => exact absurd hanswers h
  | enters _ => rfl

/-- The request for the target of a listed reference leaves one unanswered reference less. -/
theorem advances_followed {r : Request} {reference : String} (hr : r.schema.Inside Q)
    (hname : r.name = b.nameOf reference) (hreference : reference ∈ refs)
    (hnone : ¬ p.Answers (b.nameOf reference)) :
    Ensures (request r) { p with followed := p.followed + 1 }
      (fun _ p' => b.Advances Q refs 0 p p') fun _ => False := by
  have hfresh : ¬ ({ p with followed := p.followed + 1 } : Progress).Answers r.name :=
    hname ▸ hnone
  have hadvances : Ensures (request r) { p with followed := p.followed + 1 }
      (fun _ p' => b.Advances Q refs r.schema.cost { p with followed := p.followed + 1 } p')
      fun _ => False :=
    advances_request hr _
  refine (hadvances.and (ensures_request_fresh hfresh)).mono (fun _ p' hp' => ?_) fun _ he => he.1
  obtain ⟨hadvances, _, heq⟩ := hp'
  obtain ⟨new, hnew, hinside, _⟩ := hadvances.pending
  have hanswered : p'.Answers r.name := by
    rw [heq]
    exact .inr (has_requested.2 (.inr rfl))
  have hlt : b.unanswered refs p' < b.unanswered refs p :=
    unanswered_lt hadvances.answers hreference hnone (hname ▸ hanswered)
  have hcount : p'.followed = p.followed + 1 := by
    rw [heq]
    rfl
  refine ⟨?_, hadvances.answers, ?_, new, hnew, hinside, fun heq => ?_⟩
  · omega
  · omega
  · omega

/-- What references that satisfy `Q` lead to: their targets have normal forms with such references
again, or else the error is one of `bad`. -/
structure Leads (b : Builder) (Q : String → Prop) (bad : CatalogError → Prop) : Prop where
  target {r path : String} {e : CatalogError} : Q r →
    (b.scope.registry.expand r).at path = .error e → bad e
  normal {r path : String} {s : Schema} {e : CatalogError} : Q r →
    b.scope.registry.expand r = .ok s → (b.normalForm s).at path = .error e → bad e
  inside {r : String} {s t : Schema} : Q r → b.scope.registry.expand r = .ok s →
    b.normalForm s = .ok t → t.Inside Q

variable {bad : CatalogError → Prop}

/-- Following a reference costs nothing: there is one unanswered reference less. -/
theorem advances_follow (h : Leads b Q bad) {r : String} (hrefs : Q r → r ∈ refs) (path : String)
    (p : Progress) (hr : Q r) :
    Ensures (b.referenceSpec r path) p (fun _ p' => b.Advances Q refs 0 p p') bad := by
  unfold referenceSpec
  apply ensures_get_bind
  split
  · rename_i hfree
    apply ensures_lift_bind
    · intro target htarget
      apply ensures_lift_bind
      · intro schema hschema
        apply ensures_modify_bind
        have hinside := h.inside hr (Outcome.at_eq_ok htarget) (Outcome.at_eq_ok hschema)
        have hnone : ¬ p.Answers (b.nameOf r) := by
          simpa [Progress.Answers, nameOf] using hfree
        refine ensures_bind ((advances_followed hinside ?_ (hrefs hr) hnone).mono
          (fun _ _ h => h) fun _ he => he.elim) ?_
        · simp only [nameOf]
        · exact fun _ _ hp' => ensures_pure hp'
      · exact fun e he => h.normal hr (Outcome.at_eq_ok htarget) he
    · exact fun e he => h.target hr he
  · exact ensures_pure (.refl p)

theorem moves_advances (h : Leads b Q bad) (hrefs : ∀ r, Q r → r ∈ refs) :
    Moves b Q bad (b.Advances Q refs) where
  refl := .refl
  trans := .trans
  mono := .mono
  record := advances_record
  request p hr _ _ := (advances_request hr p).mono (fun _ _ h => h) fun _ he => he.elim
  follow path p hr := advances_follow h (hrefs _) path p hr

def Waiting (Q : String → Prop) (p : Progress) : Prop := ∀ r ∈ p.pending, r.schema.Inside Q

theorem advances_buildNext (h : Moves b Q bad (b.Advances Q refs)) {r : Request}
    {rest : List Request} (hp : Waiting Q p) (hpending : p.pending = r :: rest) :
    Ensures (b.buildNext r rest) p (fun _ p' => Waiting Q p' ∧ p.followed ≤ p'.followed ∧
      p'.followed + b.unanswered refs p' ≤ p.followed + b.unanswered refs p ∧
      (p'.followed = p.followed → Request.costs p'.pending < Request.costs p.pending)) bad := by
  have hr : r.schema.Inside Q := hp r (hpending ▸ List.mem_cons_self)
  unfold buildNext
  apply ensures_modify_bind
  apply ensures_bind (h.buildType hr { p with pending := rest })
  intro type p₁ hp₁
  obtain ⟨new, hnew, hinside, hcosts⟩ := hp₁.pending
  have hnew' : p₁.pending = rest ++ new := hnew
  refine ensures_modify ⟨fun r' hr' => ?_, hp₁.followed, ?_, fun hfollowed => ?_⟩
  · have hmem : r' ∈ rest ++ new := hnew' ▸ hr'
    refine (List.mem_append.1 hmem).elim (fun hmem => hp r' ?_) (hinside r')
    exact hpending ▸ List.mem_cons_of_mem r hmem
  · have hadded : ∀ name, p₁.Answers name → (p₁.addType type).Answers name :=
      fun name hname => hname.imp_left fun hname => Catalog.hasType_addType.2 (.inl hname)
    have hle : b.unanswered refs (p₁.addType type) ≤ b.unanswered refs p₁ := unanswered_le hadded
    exact (Nat.add_le_add_left hle _).trans hp₁.unanswered
  · have hless : Request.costs new ≤ r.schema.cost - 1 := hcosts hfollowed
    have hpos := r.schema.cost_pos
    rw [hnew', hpending, Request.costs, Request.costs, List.map_append, List.sum_append,
      List.map_cons, List.sum_cons]
    rw [Request.costs] at hless
    omega

/-- How building what waits ends, one request after the other for as long as there are any: with
nothing left to build, or in the error of the first type that cannot be built. `built` lists the
requests that are built before, each with its type. -/
inductive Ends (b : Builder) :
    Progress → List (Request × CatalogType) → Outcome Progress → Prop
  | done {p : Progress} : p.pending = [] → Ends b p [] (.ok p)
  | fails {p : Progress} {r : Request} {rest : List Request} {e : CatalogError} :
    p.pending = r :: rest →
    (b.buildType r).run { p with pending := rest } = .error e → Ends b p [] (.error e)
  | next {p p₁ : Progress} {r : Request} {rest : List Request} {type : CatalogType}
    {built : List (Request × CatalogType)} {result : Outcome Progress} : p.pending = r :: rest →
    (b.buildType r).run { p with pending := rest } = .ok (type, p₁) →
    Ends b (p₁.addType type) built result → Ends b p ((r, type) :: built) result

/-- The step builds all that waits, and ends as that does; its error, if it ends in one, is one of
`bad`. -/
def Completes (b : Builder) (bad : CatalogError → Prop) (x : BuildM Unit) (p : Progress) : Prop :=
  Ensures x p (fun _ p' => ∃ built, Ends b p built (.ok p'))
    fun e => bad e ∧ ∃ built, Ends b p built (.error e)

theorem ensures_buildNext_runs (b : Builder) (r : Request) (rest : List Request) (p : Progress) :
    Ensures (b.buildNext r rest) p (fun _ p' => ∃ type p₁,
        (b.buildType r).run { p with pending := rest } = .ok (type, p₁) ∧ p' = p₁.addType type)
      fun e => (b.buildType r).run { p with pending := rest } = .error e := by
  rw [buildNext]
  apply ensures_modify_bind
  apply ensures_bind (ensures_outcome (b.buildType r) _)
  intro type p₁ hrun
  exact ensures_modify ⟨type, p₁, hrun, rfl⟩

theorem Completes.next {x : BuildM Unit} {r : Request} {rest : List Request} {type : CatalogType}
    {p₁ : Progress} (hpending : p.pending = r :: rest)
    (hrun : (b.buildType r).run { p with pending := rest } = .ok (type, p₁))
    (h : Completes b bad x (p₁.addType type)) :
    Ensures x (p₁.addType type) (fun _ p' => ∃ built, Ends b p built (.ok p'))
      fun e => bad e ∧ ∃ built, Ends b p built (.error e) := by
  have hnext (result : Outcome Progress) :
      (∃ built, Ends b (p₁.addType type) built result) → ∃ built, Ends b p built result := by
    intro hends
    obtain ⟨built, hends⟩ := hends
    exact ⟨(r, type) :: built, .next hpending hrun hends⟩
  exact h.mono (fun _ p' hp' => hnext (.ok p') hp') fun e he => ⟨he.1, hnext (.error e) he.2⟩

/-- Steps that outnumber the costs of what waits reach the end, or a reference is followed and then
there is one unanswered reference less. -/
theorem completes_steps (h : Moves b Q bad (b.Advances Q refs)) {again : BuildM Unit} {left : Nat}
    (hagain : ∀ p', Waiting Q p' → b.unanswered refs p' < left → Completes b bad again p')
    {steps : Nat} (hp : Waiting Q p) (hleft : b.unanswered refs p ≤ left)
    (hsteps : Request.costs p.pending < steps) :
    Completes b bad (b.drainSteps again steps) p := by
  induction steps generalizing p with
  | zero => exact absurd hsteps (Nat.not_lt_zero _)
  | succ steps ih =>
    unfold drainSteps
    apply ensures_get_bind
    cases hpending : p.pending with
    | nil => exact ensures_pure ⟨[], .done hpending⟩
    | cons r rest =>
      have hstep := (advances_buildNext h hp hpending).and (ensures_buildNext_runs b r rest p)
      apply ensures_bind (hstep.mono (fun _ _ hp' => hp') fun e he =>
        ⟨he.1, [], .fails hpending he.2⟩)
      intro _ p' hp'
      obtain ⟨⟨hwaiting, hfollowed, hunanswered, hcosts⟩, type, p₁, hrun, heq⟩ := hp'
      apply ensures_get_bind
      -- without a followed reference the costs go down, with one there is less that is unanswered
      by_cases hsame : p'.followed = p.followed
      · rw [if_pos (beq_iff_eq.2 hsame)]
        have hless := hcosts hsame
        subst heq
        exact (ih hwaiting (by omega) (by omega)).next hpending hrun
      · rw [if_neg (mt beq_iff_eq.1 hsame)]
        have hless : b.unanswered refs p' < left := by omega
        subst heq
        exact (hagain _ hwaiting hless).next hpending hrun

theorem completes_rounds (h : Moves b Q bad (b.Advances Q refs)) {rounds : Nat}
    (hp : Waiting Q p) (hrounds : b.unanswered refs p < rounds) :
    Completes b bad (b.drainRounds rounds) p := by
  induction rounds generalizing p with
  | zero => exact absurd hrounds (Nat.not_lt_zero _)
  | succ rounds ih =>
    unfold drainRounds
    apply ensures_get_bind
    have hbudget : stepBudget p.pending = Request.costs p.pending + 1 := by
      induction p.pending with
      | nil => rfl
      | cons r rest ih =>
        simp only [stepBudget, Request.costs, List.foldr_cons, List.map_cons,
          List.sum_cons] at ih ⊢
        rw [ih, Nat.add_assoc]
        rfl
    exact completes_steps h (fun p' hp' hlt => ih hp' hlt) hp (Nat.le_of_lt_succ hrounds)
      (hbudget ▸ Nat.lt_succ_self _)

/-- Building ends, in what building one request after the other ends in, and fails only where
following a reference does. -/
theorem completes_drain (h : Leads b Q bad) (hp : Waiting Q p) : Completes b bad b.drain p := by
  let refs := (p.pending.flatMap fun r => r.schema.references) ++ b.scope.registry.mentioned
  have hmentioned : ∀ x ∈ b.scope.registry.mentioned, x ∈ refs :=
    fun x hx => List.mem_append_right _ hx
  have hleads : Leads b (fun r => Q r ∧ r ∈ refs) bad := by
    refine ⟨fun hr => h.target hr.1, fun hr => h.normal hr.1, ?_⟩
    intro r s t hr hs ht x hx
    have hlisted : t.Inside (· ∈ refs) :=
      Schema.normalize_inside hmentioned ht (.expand hmentioned hs)
    exact ⟨h.inside hr.1 hs ht x hx, hlisted x hx⟩
  have hwaiting : Waiting (fun r => Q r ∧ r ∈ refs) p := fun r hr x hx =>
    ⟨hp r hr x hx, List.mem_append_left _ (List.mem_flatMap.2 ⟨r, hr, hx⟩)⟩
  have hrounds : b.unanswered refs p < b.roundBudget p.pending := by
    have hle : b.unanswered refs p ≤ refs.length := List.countP_le_length
    have hlength := b.scope.registry.length_mentioned
    have hrefs : refs.length = (p.pending.flatMap fun r => r.schema.references).length +
        b.scope.registry.mentioned.length := List.length_append
    rw [roundBudget]
    omega
  have hmoves := moves_advances hleads fun r hr => hr.2
  exact ensures_get_bind (completes_rounds hmoves hwaiting hrounds)

theorem leads_any (b : Builder) : Leads b (fun _ => True) fun _ => True :=
  ⟨fun _ _ => trivial, fun _ _ _ => trivial, fun _ _ _ _ _ => trivial⟩

/-- Building ends from every state: each type is built that waits or comes to wait, unless building
one fails. -/
theorem exists_ends (b : Builder) (p : Progress) :
    ∃ built, Ends b p built ((b.drain.run p).map Prod.snd) := by
  have hcompletes : Completes b (fun _ => True) b.drain p :=
    completes_drain (leads_any b) fun _ _ _ _ => trivial
  rcases hcompletes.cases with ⟨_, p', hrun, built, hends⟩ | ⟨e, hrun, -, built, hends⟩
  · have hdrain : b.drain.run p = .ok ((), p') := hrun
    exact ⟨built, hdrain ▸ hends⟩
  · have hdrain : b.drain.run p = .error e := hrun
    exact ⟨built, hdrain ▸ hends⟩

end Builder

end SchemaCatalog
