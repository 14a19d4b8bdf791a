import SchemaCatalog.Proofs.Schema.Equality
import Mathlib.Data.List.Perm.Basic

namespace SchemaCatalog

/-- What is reached from `x` by going forth, back and forth is reached at once. -/
def Zigzag {α : Type} (R : α → α → Prop) (x : α) : Prop :=
  ∀ a b c, R x c → R a c → R a b → R x b

section

variable {α β : Type} {R S : α → α → Prop} {x : α}

theorem zigzag_eq (f : α → β) : Zigzag (fun a b => f a = f b) x :=
  fun _ _ _ hxc hac hab => hxc.trans (hac.symm.trans hab)

theorem zigzag_on {R : β → β → Prop} (f : α → β) (h : Zigzag R (f x)) :
    Zigzag (fun a b => R (f a) (f b)) x :=
  fun _ _ _ hxc hac hab => h _ _ _ hxc hac hab

theorem zigzag_and (h : Zigzag R x) (h' : Zigzag S x) :
    Zigzag (fun a b => R a b ∧ S a b) x :=
  fun _ _ _ hxc hac hab => ⟨h _ _ _ hxc.1 hac.1 hab.1, h' _ _ _ hxc.2 hac.2 hab.2⟩

theorem zigzag_optionRel {o : Option α} (h : ∀ x, o = some x → Zigzag R x) :
    Zigzag (Option.Rel R) o := by
  intro a b c hxc hac hab
  cases hxc with
  | none =>
    cases hac
    exact hab
  | some hx =>
    cases hac with
    | some ha =>
      cases hab with
      | some hb => exact .some (h _ rfl _ _ _ hx ha hb)

theorem zigzag_forall₂ {xs : List α} (h : ∀ x ∈ xs, Zigzag R x) :
    Zigzag (List.Forall₂ R) xs := by
  intro as bs cs hxc hac hab
  induction hxc generalizing as bs with
  | nil =>
    cases hac
    exact hab
  | cons hx _ ih =>
    cases hac with
    | cons ha hac =>
      cases hab with
      | cons hb hab =>
        have hrest := ih (fun x hx => h x (List.mem_cons_of_mem _ hx)) _ _ hac hab
        exact .cons (h _ List.mem_cons_self _ _ _ hx ha hb) hrest

/-- The elements of two lists are related one to one, in any order. -/
def Matched (R : α → α → Prop) (as bs : List α) : Prop :=
  ∃ bs', List.Forall₂ R as bs' ∧ bs'.Perm bs

theorem matched_of_forall₂ {as bs : List α} (h : List.Forall₂ R as bs) : Matched R as bs :=
  ⟨bs, h, .refl bs⟩

theorem Matched.append {as bs as' bs' : List α} (h : Matched R as bs) (h' : Matched R as' bs') :
    Matched R (as ++ as') (bs ++ bs') := by
  obtain ⟨cs, hrelated, hperm⟩ := h
  obtain ⟨cs', hrelated', hperm'⟩ := h'
  exact ⟨cs ++ cs', List.rel_append hrelated hrelated', hperm.append hperm'⟩

theorem Matched.map {Q : β → β → Prop} {f : α → β} {as bs : List α} (h : Matched R as bs)
    (hf : ∀ a b, R a b → Q (f a) (f b)) : Matched Q (as.map f) (bs.map f) := by
  obtain ⟨cs, hrelated, hperm⟩ := h
  refine ⟨cs.map f, ?_, hperm.map f⟩
  rw [List.forall₂_map_left_iff, List.forall₂_map_right_iff]
  exact hrelated.imp hf

theorem Matched.map_perm {f : α → β} {as bs : List α} (h : Matched R as bs)
    (hf : ∀ a ∈ as, ∀ b, R a b → f a = f b) : (as.map f).Perm (bs.map f) := by
  obtain ⟨cs, hrelated, hperm⟩ := h
  have hmap : as.map f = cs.map f := by
    clear hperm
    induction hrelated with
    | nil => rfl
    | cons hab _ ih =>
      obtain ⟨hfirst, hrest⟩ := List.forall_mem_cons.1 hf
      rw [List.map_cons, List.map_cons, hfirst _ hab, ih hrest]
  exact hmap ▸ hperm.map f

theorem zigzag_matched {xs : List α} (h : ∀ x ∈ xs, Zigzag R x) : Zigzag (Matched R) xs := by
  intro as bs cs hxc hac hab
  obtain ⟨cs', hxc, hcs'⟩ := hxc
  obtain ⟨cs'', hac, hcs''⟩ := hac
  obtain ⟨bs', hab, hbs'⟩ := hab
  -- the list in the middle is put into the order of the first
  obtain ⟨as', has', hac'⟩ : Relation.Comp List.Perm (List.Forall₂ R) as cs' := by
    rw [← List.forall₂_comp_perm_eq_perm_comp_forall₂]
    exact ⟨cs'', hac, hcs''.trans hcs'.symm⟩
  obtain ⟨bs'', hab', hbs''⟩ := List.perm_comp_forall₂ has'.symm hab
  exact ⟨bs'', zigzag_forall₂ h _ _ _ hxc hac' hab', hbs''.trans hbs'⟩

/-- If the first element was matched with another partner, the rest can still be matched. -/
theorem Matched.exchange {a b c : α} {as bs rest : List α} (h : ∀ x ∈ as, Zigzag R x)
    (hab : R a b) (hac : R a c) (has : List.Forall₂ R as bs)
    (hperm : (b :: bs).Perm (c :: rest)) : Matched R as rest := by
  rcases List.mem_cons.1 (hperm.symm.subset List.mem_cons_self) with heq | hc
  · subst heq
    exact ⟨bs, has, hperm.cons_inv⟩
  · obtain ⟨l, r, hbs⟩ := List.append_of_mem hc
    have hfront : bs.Perm (c :: (l ++ r)) := hbs ▸ List.perm_middle
    obtain ⟨as', has', hmatched⟩ : Relation.Comp List.Perm (List.Forall₂ R) as (c :: (l ++ r)) := by
      rw [← List.forall₂_comp_perm_eq_perm_comp_forall₂]
      exact ⟨bs, has, hfront⟩
    cases hmatched with
    | @cons x _ xs _ hx hxs =>
      -- the former partner of `c` takes that of the first element
      have hxb : R x b := h x (has'.symm.subset List.mem_cons_self) _ _ _ hx hac hab
      obtain ⟨ys, hys, hperm'⟩ := List.perm_comp_forall₂ has' (.cons hxb hxs)
      have hrest : (b :: (l ++ r)).Perm rest :=
        (((List.Perm.swap b c (l ++ r)).trans (hfront.symm.cons b)).trans hperm).cons_inv
      exact ⟨ys, hys, hperm'.trans hrest⟩

end

namespace Entries

variable {α : Type} {same : α → α → Bool}

def SameEntry (same : α → α → Bool) (a b : String × α) : Prop :=
  a.1 = b.1 ∧ same a.2 b.2 = true

theorem zigzag_sameEntry {e : String × α} (h : Zigzag (fun a b => same a b = true) e.2) :
    Zigzag (SameEntry same) e :=
  zigzag_and (zigzag_eq Prod.fst) (zigzag_on Prod.snd h)

theorem extract?_perm {key : String} {test : α → Bool} {entries rest : Entries α}
    (h : extract? key test entries = some rest) :
    ∃ value, test value = true ∧ List.Perm entries ((key, value) :: rest) := by
  induction entries generalizing rest with
  | nil => cases h
  | cons entry entries ih =>
    obtain ⟨k, v⟩ := entry
    unfold extract? at h
    split at h
    · rename_i hfound
      rw [Bool.and_eq_true, beq_iff_eq] at hfound
      cases h
      exact ⟨v, hfound.2, hfound.1 ▸ List.Perm.refl _⟩
    · obtain ⟨rest', hrest, h⟩ := Option.map_eq_some_iff.1 h
      subst h
      obtain ⟨value, hvalue, hperm⟩ := ih hrest
      exact ⟨value, hvalue, (hperm.cons _).trans (List.Perm.swap _ _ _)⟩

theorem extract?_isSome {key : String} {test : α → Bool} {entries : Entries α} {value : α}
    (h : (key, value) ∈ entries) (hvalue : test value = true) :
    (extract? key test entries).isSome = true := by
  induction entries with
  | nil => cases h
  | cons entry entries ih =>
    obtain ⟨k, v⟩ := entry
    unfold extract?
    split
    · rfl
    · rename_i hother
      rw [Option.isSome_map]
      rcases List.mem_cons.1 h with heq | h
      · cases heq
        simp [hvalue] at hother
      · exact ih h

/-- Each entry of the first table is paired with the first of the second that fits and is left. -/
def pairsUp (same : α → α → Bool) : Entries α → Entries α → Bool
  | [], bs => bs.isEmpty
  | (key, a) :: as, bs =>
    match extract? key (same a) bs with
    | some rest => pairsUp same as rest
    | none => false

theorem matched_of_pairsUp {as bs : Entries α} (h : pairsUp same as bs = true) :
    Matched (SameEntry same) as bs := by
  induction as generalizing bs with
  | nil =>
    rw [pairsUp, List.isEmpty_iff] at h
    subst h
    exact ⟨[], .nil, .nil⟩
  | cons entry as ih =>
    obtain ⟨key, a⟩ := entry
    unfold pairsUp at h
    split at h
    · rename_i rest hextract
      obtain ⟨c, hac, hbs⟩ := extract?_perm hextract
      obtain ⟨rest', has, hperm⟩ := ih h
      exact ⟨(key, c) :: rest', .cons ⟨rfl, hac⟩ has, (hperm.cons _).trans hbs.symm⟩
    · cases h

/-- Pairing up greedily succeeds if the tables can be matched at all. -/
theorem pairsUp_of_matched {as bs : Entries α}
    (h : ∀ e ∈ as, Zigzag (fun a b => same a b = true) e.2)
    (hmatched : Matched (SameEntry same) as bs) : pairsUp same as bs = true := by
  induction as generalizing bs with
  | nil =>
    obtain ⟨_, hnil, hperm⟩ := hmatched
    cases hnil
    rw [pairsUp, hperm.symm.eq_nil, List.isEmpty_nil]
  | cons entry as ih =>
    obtain ⟨key, a⟩ := entry
    obtain ⟨_, hfirst, hperm⟩ := hmatched
    cases hfirst with
    | @cons _ e _ _ hab has =>
      have hrest (e : String × α) (he : e ∈ as) := h e (List.mem_cons_of_mem _ he)
      have hmem : (key, e.2) ∈ bs := by
        obtain ⟨hkey, _⟩ := hab
        cases hkey
        exact hperm.subset List.mem_cons_self
      obtain ⟨rest, hextract⟩ := Option.isSome_iff_exists.1 (extract?_isSome hmem hab.2)
      obtain ⟨c, hac, hbs⟩ := extract?_perm hextract
      rw [pairsUp, hextract]
      have hfound : SameEntry same (key, a) (key, c) := ⟨rfl, hac⟩
      apply ih hrest
      apply Matched.exchange _ hab hfound has (hperm.trans hbs)
      exact fun e he => zigzag_sameEntry (hrest e he)

theorem zigzag_pairsUp {entries : Entries α}
    (h : ∀ e ∈ entries, Zigzag (fun a b => same a b = true) e.2) :
    Zigzag (fun a b => pairsUp same a b = true) entries := by
  intro as bs cs hxc hac hab
  apply pairsUp_of_matched h
  have hentry (e : String × α) (he : e ∈ entries) := zigzag_sameEntry (h e he)
  exact zigzag_matched hentry _ _ _ (matched_of_pairsUp hxc) (matched_of_pairsUp hac)
    (matched_of_pairsUp hab)

end Entries

theorem Numeral.zigzag (n : Numeral) : Zigzag (fun a b => a.same b = true) n := by
  intro a b c
  cases n <;> cases a <;> cases b <;> cases c <;> grind [same]

theorem sameOption_iff {α : Type} {same : α → α → Bool} {a b : Option α} :
    sameOption same a b = true ↔ Option.Rel (fun a b => same a b = true) a b := by
  cases a <;> cases b <;> simp [sameOption]

theorem zigzag_sameOption {α : Type} {same : α → α → Bool} {o : Option α}
    (h : ∀ x, o = some x → Zigzag (fun a b => same a b = true) x) :
    Zigzag (fun a b => sameOption same a b = true) o := by
  simp only [sameOption_iff]
  exact zigzag_optionRel h

namespace Json

theorem sameItems_iff {xs ys : List Json} :
    sameItems xs ys = true ↔ List.Forall₂ (fun x y => x.same y = true) xs ys := by
  induction xs generalizing ys with
  | nil => cases ys <;> simp [sameItems]
  | cons x xs ih => cases ys <;> simp [sameItems, ih]

theorem sameMembers_eq (xs ys : List (String × Json)) :
    sameMembers xs ys = Entries.pairsUp same xs ys := by
  induction xs generalizing ys with
  | nil => rfl
  | cons e xs ih =>
    obtain ⟨key, x⟩ := e
    rw [sameMembers, Entries.pairsUp]
    split <;> simp only [*]

mutual

theorem zigzag : (x : Json) → Zigzag (fun a b => a.same b = true) x
  | .array xs => by
    intro a b c hxc hac hab
    cases c with
    | array zs =>
      cases a with
      | array ys =>
        cases b with
        | array bs =>
          rw [same, sameItems_iff] at hxc hac hab ⊢
          exact zigzag_forall₂ (zigzagItems xs) _ _ _ hxc hac hab
        | _ => cases hab
      | _ => cases hac
    | _ => cases hxc
  | .object xs => by
    intro a b c hxc hac hab
    cases c with
    | object zs =>
      cases a with
      | object ys =>
        cases b with
        | object bs =>
          rw [same, sameMembers_eq] at hxc hac hab ⊢
          exact Entries.zigzag_pairsUp (zigzagMembers xs) _ _ _ hxc hac hab
        | _ => cases hab
      | _ => cases hac
    | _ => cases hxc
  | .null => by
    intro a b c hxc hac hab
    cases c <;> cases hxc
    cases a <;> cases hac
    exact hab
  | .bool x => by
    intro a b c hxc hac hab
    cases c with
    | bool z =>
      cases a with
      | bool y =>
        rw [same, beq_iff_eq] at hxc hac
        exact hxc.trans hac.symm ▸ hab
      | _ => cases hac
    | _ => cases hxc
  | .string x => by
    intro a b c hxc hac hab
    cases c with
    | string z =>
      cases a with
      | string y =>
        rw [same, beq_iff_eq] at hxc hac
        exact hxc.trans hac.symm ▸ hab
      | _ => cases hac
    | _ => cases hxc
  | .number x => by
    intro a b c hxc hac hab
    cases c with
    | number z =>
      cases a with
      | number y =>
        cases b with
        | number w =>
          rw [same] at hxc hac hab ⊢
          exact x.zigzag _ _ _ hxc hac hab
        | _ => cases hab
      | _ => cases hac
    | _ => cases hxc

theorem zigzagItems : (xs : List Json) → ∀ x ∈ xs, Zigzag (fun a b => a.same b = true) x
  | [] => nofun
  | x :: xs => by
    intro y hy
    rcases List.mem_cons.1 hy with heq | hy
    · exact heq ▸ zigzag x
    · exact zigzagItems xs y hy

theorem zigzagMembers : (xs : List (String × Json)) →
    ∀ e ∈ xs, Zigzag (fun a b => a.same b = true) e.2
  | [] => nofun
  | (key, x) :: xs => by
    intro e he
    rcases List.mem_cons.1 he with heq | he
    · exact heq ▸ zigzag x
    · exact zigzagMembers xs e he

end

end Json

theorem Keywords.zigzag (kw : Keywords) : Zigzag (fun a b => a.same b = true) kw := by
  have hitems : Zigzag (fun a b => sameOption Json.sameItems a b = true) kw.enumeration := by
    apply zigzag_sameOption
    intro xs _
    simp only [Json.sameItems_iff]
    exact zigzag_forall₂ (Json.zigzagItems xs)
  have hvalue (o : Option Json) : Zigzag (fun a b => sameOption Json.same a b = true) o :=
    zigzag_sameOption fun x _ => x.zigzag
  have hnumeral (o : Option Numeral) : Zigzag (fun a b => sameOption Numeral.same a b = true) o :=
    zigzag_sameOption fun n _ => n.zigzag
  simp only [same, Bool.and_eq_true, beq_iff_eq]
  repeat' apply zigzag_and
  all_goals first
    | exact zigzag_eq _
    | exact zigzag_on enumeration hitems
    | exact zigzag_on _ (hvalue _)
    | exact zigzag_on _ (hnumeral _)

section

variable {R : Schema → Schema → Prop}

theorem Schema.alikeItems_single_iff {a b : Schema} :
    AlikeItems R (.single a) (.single b) ↔ R a b :=
  ⟨fun h => by cases h; assumption, .single⟩

theorem Schema.alikeItems_tuple_iff {as bs : List Schema} :
    AlikeItems R (.tuple as) (.tuple bs) ↔ List.Forall₂ R as bs :=
  ⟨fun h => by cases h; assumption, .tuple⟩

theorem Schema.alikeAdditional_allowed_iff {a b : Bool} :
    AlikeAdditional R (.allowed a) (.allowed b) ↔ a = b :=
  ⟨fun h => by cases h; rfl, fun h => h ▸ .allowed⟩

theorem Schema.alikeAdditional_schema_iff {a b : Schema} :
    AlikeAdditional R (.schema a) (.schema b) ↔ R a b :=
  ⟨fun h => by cases h; assumption, .schema⟩

theorem Schema.zigzag_items {items : Items Schema}
    (hsingle : ∀ c, items = .single c → Zigzag R c)
    (htuple : ∀ list, items = .tuple list → ∀ c ∈ list, Zigzag R c) :
    Zigzag (AlikeItems R) items := by
  intro a b c hxc hac hab
  cases hxc with
  | single hx =>
    cases hac with
    | single ha =>
      cases hab with
      | single hb => exact .single (hsingle _ rfl _ _ _ hx ha hb)
  | tuple hx =>
    cases hac with
    | tuple ha =>
      cases hab with
      | tuple hb => exact .tuple (zigzag_forall₂ (htuple _ rfl) _ _ _ hx ha hb)

theorem Schema.zigzag_additional {additional : Additional Schema}
    (h : ∀ c, additional = .schema c → Zigzag R c) :
    Zigzag (AlikeAdditional R) additional := by
  intro a b c hxc hac hab
  cases hxc with
  | allowed =>
    cases hac
    exact hab
  | schema hx =>
    cases hac with
    | schema ha =>
      cases hab with
      | schema hb => exact .schema (h _ rfl _ _ _ hx ha hb)

end

namespace Schema

theorem sameNode_iff {a b : Option Schema} :
    sameNode a b = true ↔ Option.Rel (fun a b => a.same b = true) a b := by
  cases a <;> cases b <;> simp [sameNode]

theorem sameList_iff {as bs : List Schema} :
    sameList as bs = true ↔ List.Forall₂ (fun a b => a.same b = true) as bs := by
  induction as generalizing bs with
  | nil => cases bs <;> simp [sameList]
  | cons a as ih => cases bs <;> simp [sameList, ih]

theorem sameLists_iff {as bs : Option (List Schema)} :
    sameLists as bs = true ↔ Option.Rel (List.Forall₂ fun a b => a.same b = true) as bs := by
  cases as <;> cases bs <;> simp [sameLists, sameList_iff]

theorem sameEntries_eq (as bs : List (String × Schema)) :
    sameEntries as bs = Entries.pairsUp same as bs := by
  induction as generalizing bs with
  | nil => rw [sameEntries, Entries.pairsUp]
  | cons e as ih =>
    obtain ⟨key, a⟩ := e
    rw [sameEntries, Entries.pairsUp]
    split <;> simp only [*]

theorem sameTable_iff {as bs : Option (List (String × Schema))} :
    sameTable as bs = true ↔
      Option.Rel (fun as bs => Entries.pairsUp same as bs = true) as bs := by
  cases as <;> cases bs <;> simp [sameTable, sameEntries_eq]

theorem sameItems_iff {a b : Option (Items Schema)} :
    sameItems a b = true ↔ Option.Rel (AlikeItems fun a b => a.same b = true) a b := by
  rcases a with _ | as | a <;> rcases b with _ | bs | b <;>
    simp [sameItems, sameList_iff, alikeItems_single_iff, alikeItems_tuple_iff]
  all_goals
    intro h
    cases h

theorem sameAdditional_iff {a b : Option (Additional Schema)} :
    sameAdditional a b = true ↔
      Option.Rel (AlikeAdditional fun a b => a.same b = true) a b := by
  rcases a with _ | a | a <;> rcases b with _ | b | b <;>
    simp [sameAdditional, alikeAdditional_allowed_iff, alikeAdditional_schema_iff]
  all_goals
    intro h
    cases h

/-- What equality of schemas compares. -/
structure Same (s t : Schema) : Prop where
  keywords : s.keywords.same t.keywords = true
  properties : Option.Rel (fun as bs => Entries.pairsUp same as bs = true) s.properties t.properties
  patternProperties : Option.Rel (fun as bs => Entries.pairsUp same as bs = true)
    s.patternProperties t.patternProperties
  definitions : Option.Rel (fun as bs => Entries.pairsUp same as bs = true)
    s.definitions t.definitions
  items : Option.Rel (AlikeItems fun a b => a.same b = true) s.items t.items
  additionalProperties : Option.Rel (AlikeAdditional fun a b => a.same b = true)
    s.additionalProperties t.additionalProperties
  allOf : Option.Rel (List.Forall₂ fun a b => a.same b = true) s.allOf t.allOf
  anyOf : Option.Rel (List.Forall₂ fun a b => a.same b = true) s.anyOf t.anyOf
  oneOf : Option.Rel (List.Forall₂ fun a b => a.same b = true) s.oneOf t.oneOf
  not : Option.Rel (fun a b => a.same b = true) s.not t.not

theorem same_iff {s t : Schema} : s.same t = true ↔ Same s t := by
  obtain ⟨kw, props, patterns, defs, items, additional, allOf, anyOf, oneOf, not⟩ := s
  unfold same
  simp only [Bool.and_eq_true, sameTable_iff, sameItems_iff, sameAdditional_iff, sameLists_iff,
    sameNode_iff]
  constructor
  · intro h
    obtain ⟨⟨⟨⟨⟨⟨⟨⟨⟨h₁, h₂⟩, h₃⟩, h₄⟩, h₅⟩, h₆⟩, h₇⟩, h₈⟩, h₉⟩, h₁₀⟩ := h
    exact ⟨h₁, h₂, h₃, h₄, h₅, h₆, h₇, h₈, h₉, h₁₀⟩
  · intro h
    obtain ⟨h₁, h₂, h₃, h₄, h₅, h₆, h₇, h₈, h₉, h₁₀⟩ := h
    exact ⟨⟨⟨⟨⟨⟨⟨⟨⟨h₁, h₂⟩, h₃⟩, h₄⟩, h₅⟩, h₆⟩, h₇⟩, h₈⟩, h₉⟩, h₁₀⟩

theorem zigzag (s : Schema) : Zigzag (fun a b => a.same b = true) s := by
  induction s using child_induction with
  | h s ih =>
    have htable {table : Option (Entries Schema)}
        (h : ∀ entries, table = some entries → ∀ key c, (key, c) ∈ entries → Child c s) :
        Zigzag (Option.Rel fun as bs => Entries.pairsUp same as bs = true) table :=
      zigzag_optionRel fun entries hentries =>
        Entries.zigzag_pairsUp fun e he => ih e.2 (h entries hentries e.1 e.2 he)
    have hlists {lists : Option (List Schema)}
        (h : ∀ list, lists = some list → ∀ c ∈ list, Child c s) :
        Zigzag (Option.Rel (List.Forall₂ fun a b => a.same b = true)) lists :=
      zigzag_optionRel fun list hlist => zigzag_forall₂ fun c hc => ih c (h list hlist c hc)
    have hitems : Zigzag (Option.Rel (AlikeItems fun a b => a.same b = true)) s.items :=
      zigzag_optionRel fun items hitems =>
        zigzag_items (fun c hc => ih c (.item (hc ▸ hitems)))
          fun list hlist c hc => ih c (.position (hlist ▸ hitems) hc)
    have hadditional : Zigzag (Option.Rel (AlikeAdditional fun a b => a.same b = true))
        s.additionalProperties :=
      zigzag_optionRel fun additional hadditional =>
        zigzag_additional fun c hc => ih c (.additional (hc ▸ hadditional))
    have hnot : Zigzag (Option.Rel fun a b => a.same b = true) s.not :=
      zigzag_optionRel fun c hc => ih c (.not hc)
    intro a b c hxc hac hab
    rw [same_iff] at hxc hac hab ⊢
    exact
      { keywords := s.keywords.zigzag _ _ _ hxc.keywords hac.keywords hab.keywords
        properties := htable (fun _ h _ _ hc => .property h hc) _ _ _
          hxc.properties hac.properties hab.properties
        patternProperties := htable (fun _ h _ _ hc => .pattern h hc) _ _ _
          hxc.patternProperties hac.patternProperties hab.patternProperties
        definitions := htable (fun _ h _ _ hc => .definition h hc) _ _ _
          hxc.definitions hac.definitions hab.definitions
        items := hitems _ _ _ hxc.items hac.items hab.items
        additionalProperties := hadditional _ _ _ hxc.additionalProperties
          hac.additionalProperties hab.additionalProperties
        allOf := hlists (fun _ h _ hc => .allOf h hc) _ _ _ hxc.allOf hac.allOf hab.allOf
        anyOf := hlists (fun _ h _ hc => .anyOf h hc) _ _ _ hxc.anyOf hac.anyOf hab.anyOf
        oneOf := hlists (fun _ h _ hc => .oneOf h hc) _ _ _ hxc.oneOf hac.oneOf hab.oneOf
        not := hnot _ _ _ hxc.not hac.not hab.not }

theorem same_symm {s t : Schema} (h : s.same t = true) : t.same s = true :=
  t.zigzag s s t t.same_self h s.same_self

theorem same_trans {s t u : Schema} (hst : s.same t = true) (htu : t.same u = true) :
    s.same u = true :=
  s.zigzag t u t hst t.same_self htu

instance : EquivBEq Schema where
  symm := same_symm
  trans := same_trans

end Schema

end SchemaCatalog
