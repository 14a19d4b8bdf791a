import SchemaCatalog.Error

namespace SchemaCatalog

/-- Monads whose steps start in a state of type `σ` and end in a value and a state, or in an error
of type `ε`. -/
class Runs (m : Type → Type) [Monad m] (σ ε : outParam Type) where
  /-- How a step ends. -/
  outcome {α : Type} : m α → σ → Except ε (α × σ)
  outcome_pure {α : Type} (a : α) (st : σ) : outcome (pure a : m α) st = .ok (a, st)
  outcome_bind {α β : Type} (x : m α) (f : α → m β) (st : σ) :
    outcome (x >>= f) st = outcome x st >>= fun (a, st) => outcome (f a) st

instance : Runs Id Unit Empty where
  outcome x st := .ok (x.run, st)
  outcome_pure _ _ := rfl
  outcome_bind _ _ _ := rfl

instance {σ : Type} : Runs (StateT σ Id) σ Empty where
  outcome x st := .ok (x.run st).run
  outcome_pure _ _ := rfl
  outcome_bind _ _ _ := rfl

instance {σ ε : Type} : Runs (StateT σ (Except ε)) σ ε where
  outcome x st := x.run st
  outcome_pure _ _ := rfl
  outcome_bind _ _ _ := rfl

section

variable {m : Type → Type} [Monad m] {σ ε α β : Type} [Runs m σ ε]

/-- From `st` a step ends in a value and a state that satisfy `post`, or in an error that satisfies
`bad`. -/
def Ensures (x : m α) (st : σ) (post : α → σ → Prop) (bad : ε → Prop) : Prop :=
  match Runs.outcome x st with
  | .ok (a, st) => post a st
  | .error e => bad e

variable {x : m α} {st : σ} {post post' : α → σ → Prop} {bad bad' : ε → Prop}

theorem Ensures.of_ok {a : α} {st' : σ} (h : Ensures x st post bad)
    (hx : Runs.outcome x st = .ok (a, st')) : post a st' := by
  rw [Ensures, hx] at h
  exact h

theorem Ensures.of_error {e : ε} (h : Ensures x st post bad)
    (hx : Runs.outcome x st = .error e) : bad e := by
  rw [Ensures, hx] at h
  exact h

theorem Ensures.cases (h : Ensures x st post bad) :
    (∃ a st', Runs.outcome x st = .ok (a, st') ∧ post a st') ∨
      ∃ e, Runs.outcome x st = .error e ∧ bad e := by
  cases hx : Runs.outcome x st with
  | error e => exact .inr ⟨e, rfl, h.of_error hx⟩
  | ok result => exact .inl ⟨_, _, rfl, h.of_ok hx⟩

theorem Ensures.mono (h : Ensures x st post bad) (hpost : ∀ a st', post a st' → post' a st')
    (hbad : ∀ e, bad e → bad' e) : Ensures x st post' bad' := by
  cases hx : Runs.outcome x st with
  | error e =>
    rw [Ensures, hx]
    exact hbad e (h.of_error hx)
  | ok result =>
    rw [Ensures, hx]
    exact hpost _ _ (h.of_ok hx)

theorem Ensures.well (h : Ensures x st post bad) : Ensures x st post fun _ => True :=
  h.mono (fun _ _ hpost => hpost) fun _ _ => trivial

theorem Ensures.and (h : Ensures x st post bad) (h' : Ensures x st post' bad') :
    Ensures x st (fun a st' => post a st' ∧ post' a st') (fun e => bad e ∧ bad' e) := by
  cases hx : Runs.outcome x st with
  | error e =>
    rw [Ensures, hx]
    exact ⟨h.of_error hx, h'.of_error hx⟩
  | ok result =>
    rw [Ensures, hx]
    exact ⟨h.of_ok hx, h'.of_ok hx⟩

theorem ensures_outcome (x : m α) (st : σ) : Ensures x st
    (fun a st' => Runs.outcome x st = .ok (a, st')) fun e => Runs.outcome x st = .error e := by
  rw [Ensures]
  cases Runs.outcome x st with
  | error e => rfl
  | ok result => rfl

theorem ensures_run (x : m α) (st : σ) :
    Ensures x st (fun a st' => Runs.outcome x st = .ok (a, st')) fun _ => True :=
  (ensures_outcome x st).well

theorem ensures_pure {a : α} (h : post a st) : Ensures (pure a : m α) st post bad := by
  rw [Ensures, Runs.outcome_pure]
  exact h

theorem ensures_bind {f : α → m β} {mid : α → σ → Prop} {post : β → σ → Prop}
    (hx : Ensures x st mid bad) (hf : ∀ a st', mid a st' → Ensures (f a) st' post bad) :
    Ensures (x >>= f) st post bad := by
  rw [Ensures, Runs.outcome_bind]
  cases h : Runs.outcome x st with
  | error e => exact hx.of_error h
  | ok result => exact hf _ _ (hx.of_ok h)

end

theorem bind_eq_ok {ε α β : Type} {x : Except ε α} {f : α → Except ε β} {b : β}
    (h : x >>= f = .ok b) : ∃ a, x = .ok a ∧ f a = .ok b := by
  cases x with
  | error e => cases h
  | ok a => exact ⟨a, rfl, h⟩

theorem eq_ok_of_checked {ε α : Type} {c : Prop} [Decidable c] {x : Except ε Unit}
    {y : Except ε α} {a : α} (h : (if c then x >>= fun _ => y else y) = .ok a) : y = .ok a := by
  split at h
  · obtain ⟨_, _, h⟩ := bind_eq_ok h
    exact h
  · exact h

theorem eq_ok_of_toOption {ε α : Type} {x : Except ε α} {a : α} (h : x.toOption = some a) :
    x = .ok a := by
  cases x with
  | error e => cases h
  | ok b =>
    cases h
    rfl

theorem bind_eq_error {ε α β : Type} {x : Except ε α} {f : α → Except ε β} {e : ε}
    (h : x >>= f = .error e) : x = .error e ∨ ∃ a, x = .ok a ∧ f a = .error e := by
  cases x with
  | error e' =>
    cases h
    exact .inl rfl
  | ok a => exact .inr ⟨a, rfl, h⟩

theorem Outcome.at_eq_ok {α : Type} {x : Outcome α} {path : String} {a : α}
    (h : x.at path = .ok a) : x = .ok a := by
  cases x with
  | error e => cases h
  | ok b =>
    cases h
    rfl

theorem Outcome.at_of_ok {α : Type} {x : Outcome α} {a : α} (h : x = .ok a) (path : String) :
    x.at path = .ok a := by
  rw [h]
  rfl

theorem Outcome.at_eq_error {α : Type} {x : Outcome α} {path : String} {e : CatalogError}
    (h : x.at path = .error e) : ∃ e', x = .error e' ∧ e = e'.locate path := by
  cases x with
  | ok b => cases h
  | error e' =>
    cases h
    exact ⟨e', rfl, rfl⟩

/-- What every step of a fold keeps, the fold keeps. -/
theorem foldlM_invariant {ε α β : Type} {f : β → α → Except ε β} {P : β → Prop}
    (hstep : ∀ b a b', P b → f b a = .ok b' → P b') {as : List α} {b b' : β} (hb : P b)
    (h : as.foldlM f b = .ok b') : P b' := by
  induction as generalizing b with
  | nil =>
    cases h
    exact hb
  | cons a rest ih =>
    rw [List.foldlM_cons] at h
    obtain ⟨b₁, hb₁, h⟩ := bind_eq_ok h
    exact ih (hstep b a b₁ hb hb₁) h

theorem countP_lt_of_mem {α : Type} {before after : α → Bool} {as : List α} {a : α}
    (h : ∀ b, after b = true → before b = true) (ha : a ∈ as) (hbefore : before a = true)
    (hafter : after a = false) : as.countP after < as.countP before := by
  obtain ⟨front, back, has⟩ := List.append_of_mem ha
  have hfront : front.countP after ≤ front.countP before := List.countP_mono_left fun b _ => h b
  have hback : back.countP after ≤ back.countP before := List.countP_mono_left fun b _ => h b
  have hafter' : ¬ after a = true := by simp [hafter]
  rw [has, List.countP_append, List.countP_append, List.countP_cons_of_pos hbefore,
    List.countP_cons_of_neg hafter']
  omega

section

variable {α : Type} [BEq α] [LawfulBEq α]

theorem nodup_eraseDups (xs : List α) : xs.eraseDups.Nodup := by
  match xs with
  | [] => exact List.nodup_nil
  | x :: rest =>
    rw [List.eraseDups_cons]
    refine List.nodup_cons.2 ⟨fun h => ?_, nodup_eraseDups _⟩
    have hx := List.mem_filter.1 (List.mem_eraseDups.1 h)
    simp at hx
termination_by xs.length
decreasing_by exact Nat.lt_succ_of_le (List.length_filter_le _ _)

theorem eraseDups_concat [DecidableEq α] (xs : List α) (x : α) :
    (xs ++ [x]).eraseDups = if x ∈ xs then xs.eraseDups else xs.eraseDups ++ [x] := by
  rw [List.eraseDups_append]
  by_cases h : x ∈ xs
  · simp [List.removeAll, h]
  · simp [List.removeAll, h, List.eraseDups_cons]

end

section

variable {σ ε α β : Type} {st : σ} {bad : ε → Prop}

theorem ensures_lift {x : Except ε α} {post : α → σ → Prop}
    (hok : ∀ a, x = .ok a → post a st) (herror : ∀ e, x = .error e → bad e) :
    Ensures (liftM x : StateT σ (Except ε) α) st post bad := by
  cases x with
  | error e => exact herror e rfl
  | ok a => exact hok a rfl

theorem ensures_modify {f : σ → σ} {post : PUnit → σ → Prop} (h : post ⟨⟩ (f st)) :
    Ensures (modify f : StateT σ (Except ε) PUnit) st post bad :=
  h

theorem ensures_throw {e : ε} {post : α → σ → Prop} (h : bad e) :
    Ensures (throw e : StateT σ (Except ε) α) st post bad :=
  h

variable {post : β → σ → Prop}

theorem ensures_lift_bind {x : Except ε α} {f : α → StateT σ (Except ε) β}
    (hok : ∀ a, x = .ok a → Ensures (f a) st post bad) (herror : ∀ e, x = .error e → bad e) :
    Ensures (liftM x >>= f) st post bad := by
  cases x with
  | error e => exact herror e rfl
  | ok a => exact hok a rfl

theorem ensures_ok_bind {x : Except ε α} {a : α} {f : α → StateT σ (Except ε) β}
    (hx : x = .ok a) (h : Ensures (f a) st post bad) : Ensures (liftM x >>= f) st post bad := by
  subst hx
  exact h

theorem ensures_get_bind {f : σ → StateT σ (Except ε) β} (h : Ensures (f st) st post bad) :
    Ensures (get >>= f) st post bad :=
  h

theorem ensures_set_bind {st' : σ} {f : PUnit → StateT σ (Except ε) β}
    (h : Ensures (f ⟨⟩) st' post bad) : Ensures (set st' >>= f) st post bad :=
  h

theorem ensures_modify_bind {g : σ → σ} {f : PUnit → StateT σ (Except ε) β}
    (h : Ensures (f ⟨⟩) (g st) post bad) : Ensures (modify g >>= f) st post bad :=
  h

end

end SchemaCatalog
