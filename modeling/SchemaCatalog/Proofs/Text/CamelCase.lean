import SchemaCatalog.Proofs.Text.Ascii
import Mathlib.Data.List.Basic

namespace SchemaCatalog.Text

def isCased (c : Char) : Bool := isLowercase c || isUppercase c

/-- A word in camel case: a capital, a small letter, and then nothing that starts another word. -/
structure Hump (first second : Char) (rest : List Char) : Prop where
  capital : isUppercase first = true ∧ isLowercase first = false
  small : isLowercase second = true
  uncut : ∀ c ∈ second :: rest, isUppercase c = false
  alphanumeric : ∀ c ∈ first :: second :: rest, isAlphanumeric c = true
  uppercase : uppercase first = [first]
  lowered : ∃ c, c ≠ first ∧ lowercase first = [c]
  lowercase : ∀ c ∈ second :: rest, lowercase c = [c]

variable {first second : Char} {rest : List Char} {mode : CaseMode} {word : List Char}

theorem CaseMode.next_ne_unknown {c : Char} (h : mode ≠ .unknown ∨ isCased c = true) :
    mode.next c ≠ .unknown := by
  unfold next
  by_cases hlower : isLowercase c = true
  · rw [if_pos hlower]
    nofun
  · by_cases hupper : isUppercase c = true
    · rw [if_neg hlower, if_pos hupper]
      nofun
    · rw [if_neg hlower, if_neg hupper]
      apply h.resolve_right
      simp [isCased, hlower, hupper]

theorem CaseMode.next_of_uncased {c : Char} (h : isCased c = false) : mode.next c = mode := by
  rw [isCased, Bool.or_eq_false_iff] at h
  rw [next, h.1, h.2]
  rfl

section

variable {c next : Char}

theorem cutAtCase_rise (hmode : mode.next c = .lower) (hnext : isUppercase next = true) :
    cutAtCase mode word (c :: next :: rest) =
      (c :: word).reverse :: cutAtCase .unknown [] (next :: rest) := by
  simp [cutAtCase, hmode, hnext]

theorem cutAtCase_fall (hmode : ¬ (mode.next c = .lower ∧ isUppercase next = true))
    (h : mode = .upper ∧ isUppercase c = true ∧ isLowercase next = true) :
    cutAtCase mode word (c :: next :: rest) =
      word.reverse :: cutAtCase .unknown [c] (next :: rest) := by
  simp only [cutAtCase, Bool.and_eq_true, beq_iff_eq, and_assoc, if_neg hmode, if_pos h]

theorem cutAtCase_read (hmode : ¬ (mode.next c = .lower ∧ isUppercase next = true))
    (h : ¬ (mode = .upper ∧ isUppercase c = true ∧ isLowercase next = true)) :
    cutAtCase mode word (c :: next :: rest) =
      cutAtCase (mode.next c) (c :: word) (next :: rest) := by
  simp only [cutAtCase, Bool.and_eq_true, beq_iff_eq, and_assoc, if_neg hmode, if_neg h]

end

theorem cutAtCase_skip {front back : List Char} (hfront : ∀ c ∈ front, isCased c = false)
    (hback : back ≠ []) : cutAtCase .unknown word (front ++ back) =
      cutAtCase .unknown (front.reverse ++ word) back := by
  induction front generalizing word with
  | nil => rfl
  | cons c front ih =>
    obtain ⟨hc, hfront⟩ := List.forall_mem_cons.1 hfront
    obtain ⟨next, more, hmore⟩ : ∃ next more, front ++ back = next :: more :=
      List.exists_cons_of_ne_nil (List.append_ne_nil_of_right_ne_nil front hback)
    have hnext : CaseMode.unknown.next c = .unknown := CaseMode.next_of_uncased hc
    have hread : cutAtCase .unknown word (c :: next :: more) =
        cutAtCase .unknown (c :: word) (next :: more) := by
      rw [cutAtCase_read, hnext]
      · rw [hnext]
        nofun
      · nofun
    rw [List.cons_append, hmore, hread, ← hmore, ih hfront, List.reverse_cons, List.append_assoc]
    rfl

theorem cutAtCase_uncut {c : Char} (hmode : mode ≠ .upper ∨ isUppercase c = false)
    (hrest : ∀ d ∈ rest, isUppercase d = false) :
    cutAtCase mode word (c :: rest) = [word.reverse ++ c :: rest] := by
  induction rest generalizing mode word c with
  | nil => simp [cutAtCase]
  | cons next rest ih =>
    obtain ⟨hnext, hrest⟩ := List.forall_mem_cons.1 hrest
    rw [cutAtCase_read, ih (.inr hnext) hrest, List.reverse_cons, List.append_assoc]
    · rfl
    · rw [hnext]
      exact fun h => Bool.false_ne_true h.2
    · intro h
      rcases hmode with hmode | hc
      · exact hmode h.1
      · exact Bool.false_ne_true (hc.symm.trans h.2.1)

theorem cutAtCase_small {mode' : CaseMode} {more : List Char}
    (hsmall : isLowercase second = true ∧ isUppercase second = false) :
    cutAtCase mode word (second :: more) = cutAtCase mode' word (second :: more) := by
  cases more with
  | nil => rfl
  | cons c more => simp [cutAtCase, CaseMode.next, hsmall.1, hsmall.2]

theorem cutAtCase_start {more : List Char}
    (hsmall : isLowercase second = true ∧ isUppercase second = false) :
    cutAtCase .unknown [first] (second :: more) =
      cutAtCase .unknown [] (first :: second :: more) := by
  rw [cutAtCase_read, cutAtCase_small hsmall]
  · rw [hsmall.2]
    exact fun h => Bool.false_ne_true h.2
  · nofun

/-- Behind a character with case, a capital that a small letter follows starts a word. -/
theorem cutAtCase_append {front more : List Char}
    (hcapital : isUppercase first = true ∧ isLowercase first = false)
    (hsmall : isLowercase second = true ∧ isUppercase second = false) (hfront : front ≠ [])
    (hcased : mode ≠ .unknown ∨ ∃ c ∈ front, isCased c = true) :
    cutAtCase mode word (front ++ first :: second :: more) =
      cutAtCase mode word front ++ cutAtCase .unknown [] (first :: second :: more) := by
  -- once a character with case is read the mode is known, and it stays so until the word is cut
  induction front generalizing mode word with
  | nil => exact absurd rfl hfront
  | cons c front ih =>
    cases front with
    | nil =>
      have hnext : mode.next c ≠ .unknown := by
        apply CaseMode.next_ne_unknown
        apply hcased.imp_right
        rintro ⟨d, hd, hcased⟩
        rwa [List.mem_singleton.1 hd] at hcased
      have hsingle : cutAtCase mode word [c] = [(c :: word).reverse] := rfl
      rw [hsingle, List.singleton_append, List.singleton_append]
      cases hmode : mode.next c with
      | unknown => exact absurd hmode hnext
      | lower => exact cutAtCase_rise hmode hcapital.1
      | upper =>
        -- the capital is read first, and the word is cut before it when the small letter is seen
        rw [cutAtCase_read, hmode, cutAtCase_fall, cutAtCase_start hsmall]
        · rw [hsmall.2]
          exact fun h => Bool.false_ne_true h.2
        · exact ⟨rfl, hcapital.1, hsmall.1⟩
        · rw [hmode]
          nofun
        · rw [hcapital.2]
          exact fun h => Bool.false_ne_true h.2.2
    | cons next front =>
      rw [List.cons_append, List.cons_append]
      by_cases hrise : mode.next c = .lower ∧ isUppercase next = true
      · rw [cutAtCase_rise hrise.1 hrise.2, cutAtCase_rise hrise.1 hrise.2, List.cons_append]
        congr 1
        apply ih (List.cons_ne_nil _ _)
        exact .inr ⟨next, List.mem_cons_self, by simp [isCased, hrise.2]⟩
      · by_cases hfall : mode = .upper ∧ isUppercase c = true ∧ isLowercase next = true
        · rw [cutAtCase_fall hrise hfall, cutAtCase_fall hrise hfall, List.cons_append]
          congr 1
          apply ih (List.cons_ne_nil _ _)
          exact .inr ⟨next, List.mem_cons_self, by simp [isCased, hfall.2.2]⟩
        · rw [cutAtCase_read hrise hfall, cutAtCase_read hrise hfall]
          apply ih (List.cons_ne_nil _ _)
          rcases hcased with hmode | ⟨d, hd, hcased⟩
          · exact .inl (CaseMode.next_ne_unknown (.inl hmode))
          · rcases List.mem_cons.1 hd with heq | hd
            · exact .inl (CaseMode.next_ne_unknown (.inr (heq ▸ hcased)))
            · exact .inr ⟨d, hd, hcased⟩

theorem Hump.cut (h : Hump first second rest) :
    cutAtCase .unknown word (first :: second :: rest) =
      [word.reverse ++ first :: second :: rest] :=
  cutAtCase_uncut (.inl nofun) h.uncut

theorem Hump.small' (h : Hump first second rest) :
    isLowercase second = true ∧ isUppercase second = false :=
  ⟨h.small, h.uncut second List.mem_cons_self⟩

/-- The last stretch of alphanumeric characters in a text is what changes when more of them are put
behind it. -/
theorem alphanumericParts_append {text more : List Char}
    (hmore : ∀ c ∈ more, isAlphanumeric c = true) : ∃ parts last,
      alphanumericParts text = parts ++ [last] ∧
        alphanumericParts (text ++ more) = parts ++ [last ++ more] := by
  induction text with
  | nil =>
    refine ⟨[], [], rfl, ?_⟩
    induction more with
    | nil => rfl
    | cons c more ih =>
      obtain ⟨hc, hmore⟩ := List.forall_mem_cons.1 hmore
      have hrest := ih hmore
      rw [List.nil_append] at hrest ⊢
      simp [alphanumericParts, hc, hrest]
  | cons c text ih =>
    obtain ⟨parts, last, htext, happend⟩ := ih
    rw [List.cons_append]
    by_cases hc : isAlphanumeric c = true
    · cases parts with
      | nil =>
        refine ⟨[], c :: last, ?_, ?_⟩
        · simp [alphanumericParts, hc, htext]
        · simp [alphanumericParts, hc, happend]
      | cons part parts =>
        refine ⟨(c :: part) :: parts, last, ?_, ?_⟩
        · simp [alphanumericParts, hc, htext]
        · simp [alphanumericParts, hc, happend]
    · refine ⟨[] :: parts, last, ?_, ?_⟩
      · simp [alphanumericParts, hc, htext]
      · simp [alphanumericParts, hc, happend]

/-- Whether the alphanumeric characters that a text ends in are none or have letter case among
them. -/
def endsCased (text : List Char) : Bool :=
  match (alphanumericParts text).getLast? with
  | none => true
  | some last => last.isEmpty || last.any isCased

theorem lowerWord_cons {c : Char} {back : List Char} (hback : back ≠ []) :
    lowerWord (c :: back) = lowercase c ++ lowerWord back := by
  cases back with
  | nil => exact absurd rfl hback
  | cons d back => rw [lowerWord]; nofun

theorem lowerWord_append {front back : List Char} (hback : back ≠ []) :
    lowerWord (front ++ back) = front.flatMap lowercase ++ lowerWord back := by
  induction front with
  | nil => rfl
  | cons c front ih =>
    have hne : front ++ back ≠ [] := List.append_ne_nil_of_right_ne_nil front hback
    rw [List.cons_append, lowerWord_cons hne, ih, List.flatMap_cons, List.append_assoc]

theorem lowerWord_eq_flatMap (h : 'Σ' ∉ word) : lowerWord word = word.flatMap lowercase := by
  -- only a sigma at the end of a word is not spelled as it is elsewhere
  induction word with
  | nil => rfl
  | cons c word ih =>
    obtain ⟨hc, hword⟩ := not_or.1 (mt List.mem_cons.2 h)
    cases word with
    | nil =>
      rw [lowerWord, List.flatMap_singleton]
      · exact List.append_nil _
      · exact fun heq _ => hc heq.symm
    | cons d word =>
      rw [lowerWord_cons (List.cons_ne_nil d word), ih hword]
      rfl

theorem lowerWord_eq_self (hupper : ∀ c ∈ word, isUppercase c = false)
    (hlower : ∀ c ∈ word, lowercase c = [c]) : lowerWord word = word := by
  have hsigma : 'Σ' ∉ word := by
    intro hmem
    exact absurd (hupper _ hmem) (by decide +kernel)
  rw [lowerWord_eq_flatMap hsigma, List.flatMap_congr hlower]
  exact List.flatMap_singleton' word

theorem Hump.capitalizeWord (h : Hump first second rest) :
    capitalizeWord (first :: second :: rest) = first :: second :: rest := by
  rw [Text.capitalizeWord, h.uppercase, lowerWord_eq_self h.uncut h.lowercase]
  rfl

variable {text : List Char}

theorem words_append_of_cased (h : Hump first second rest) (hcased : endsCased text = true) :
    words (text ++ first :: second :: rest) = words text ++ [first :: second :: rest] := by
  obtain ⟨parts, last, htext, happend⟩ := @alphanumericParts_append text _ h.alphanumeric
  rw [words, words, htext, happend, List.flatMap_append, List.flatMap_append,
    List.flatMap_singleton, List.flatMap_singleton, List.append_assoc]
  congr 1
  cases last with
  | nil => exact h.cut
  | cons c last =>
    have hsome : ∃ d ∈ c :: last, isCased d = true := by
      rw [endsCased, htext, List.getLast?_concat] at hcased
      exact List.any_eq_true.1 hcased
    rw [cutAtCase_append h.capital h.small' (List.cons_ne_nil c last) (.inr hsome), h.cut]
    rfl

theorem words_append_of_uncased (h : Hump first second rest) (hcased : endsCased text = false) :
    ∃ front c last, words text = front ++ [c :: last] ∧
      words (text ++ first :: second :: rest) =
        front ++ [c :: (last ++ first :: second :: rest)] := by
  obtain ⟨parts, last, htext, happend⟩ := @alphanumericParts_append text _ h.alphanumeric
  rw [endsCased, htext, List.getLast?_concat] at hcased
  cases last with
  | nil => cases hcased
  | cons c last =>
    have huncased : ∀ d ∈ c :: last, isCased d = false := by
      intro d hd
      have hany : (c :: last).any isCased = false := hcased
      exact Bool.eq_false_iff.2 (List.any_eq_false.1 hany d hd)
    have hlast : cutAtCase .unknown [] (c :: last) = [c :: last] := by
      have hunknown : CaseMode.unknown ≠ .upper := nofun
      apply cutAtCase_uncut (.inl hunknown)
      intro d hd
      exact (Bool.or_eq_false_iff.1 (huncased d (List.mem_cons_of_mem c hd))).2
    have hback : cutAtCase .unknown [] (c :: last ++ first :: second :: rest) =
        [c :: last ++ first :: second :: rest] := by
      rw [cutAtCase_skip huncased (List.cons_ne_nil _ _), h.cut, List.append_nil,
        List.reverse_reverse]
    refine ⟨parts.flatMap (cutAtCase .unknown []), c, last, ?_, ?_⟩
    · rw [words, htext, List.flatMap_append, List.flatMap_singleton, hlast]
    · rw [words, happend, List.flatMap_append, List.flatMap_singleton, hback]
      rfl

theorem upperCamel_append_of_cased {name : String} (h : Hump first second rest)
    (hcased : endsCased name.toList = true) :
    upperCamel (name ++ String.ofList (first :: second :: rest)) =
      upperCamel name ++ String.ofList (first :: second :: rest) := by
  rw [upperCamel, String.toList_append, String.toList_ofList, words_append_of_cased h hcased,
    List.flatMap_append, List.flatMap_singleton, h.capitalizeWord, String.ofList_append]
  rfl

theorem upperCamel_append_of_uncased {name : String} (h : Hump first second rest)
    (hcased : endsCased name.toList = false) :
    upperCamel (name ++ String.ofList (first :: second :: rest)) ≠
      name ++ String.ofList (first :: second :: rest) := by
  intro heq
  obtain ⟨front, c, last, _, hwords⟩ := words_append_of_uncased h hcased
  obtain ⟨small, hne, hsmall⟩ := h.lowered
  have hlower : lowerWord (first :: second :: rest) = small :: second :: rest := by
    rw [lowerWord_cons (List.cons_ne_nil _ _), hsmall, lowerWord_eq_self h.uncut h.lowercase]
    rfl
  have hlists := congrArg String.toList heq
  rw [upperCamel, String.toList_append, String.toList_ofList, String.toList_ofList, hwords,
    List.flatMap_append, List.flatMap_singleton, Text.capitalizeWord,
    lowerWord_append (List.cons_ne_nil _ _), hlower, ← List.append_assoc, ← List.append_assoc]
    at hlists
  have hback := (List.append_inj' hlists rfl).2
  exact hne (List.cons.inj hback).1

/-- A name with a word behind it is camel case exactly if the name is and ends in text with letter
case. -/
theorem upperCamel_append_iff (h : Hump first second rest) (name : String) :
    upperCamel (name ++ String.ofList (first :: second :: rest)) =
        name ++ String.ofList (first :: second :: rest) ↔
      upperCamel name = name ∧ endsCased name.toList = true := by
  by_cases hcased : endsCased name.toList = true
  · rw [upperCamel_append_of_cased h hcased, String.append_left_inj, hcased]
    exact (and_iff_left rfl).symm
  · have hnone := upperCamel_append_of_uncased h (Bool.eq_false_iff.2 hcased)
    exact ⟨fun heq => absurd heq hnone, fun hboth => absurd hboth.2 hcased⟩

inductive Humped : List Char → Prop
  | word {first second : Char} {rest : List Char} :
      Hump first second rest → Humped (first :: second :: rest)

theorem cutAtCase_humps {humps : List (List Char)} (hne : humps ≠ [])
    (h : ∀ w ∈ humps, Humped w) : cutAtCase .unknown [] humps.flatten = humps := by
  induction humps with
  | nil => exact absurd rfl hne
  | cons w humps ih =>
    obtain ⟨hw, hmore⟩ := List.forall_mem_cons.1 h
    cases hw with
    | @word first second rest hhump =>
      cases humps with
      | nil =>
        rw [List.flatten_singleton]
        exact hhump.cut
      | cons w' humps =>
        have hrest := ih (List.cons_ne_nil _ _) hmore
        obtain ⟨hw', _⟩ := List.forall_mem_cons.1 hmore
        cases hw' with
        | @word first' second' rest' hhump' =>
          have hcased : ∃ c ∈ first :: second :: rest, isCased c = true :=
            ⟨first, List.mem_cons_self, by simp [isCased, hhump.capital.1]⟩
          calc cutAtCase .unknown [] (_ :: _ :: humps).flatten
            _ = cutAtCase .unknown []
                (first :: second :: rest ++ first' :: second' :: (rest' ++ humps.flatten)) := rfl
            _ = cutAtCase .unknown [] (first :: second :: rest) ++
                cutAtCase .unknown [] (first' :: second' :: (rest' ++ humps.flatten)) :=
              cutAtCase_append hhump'.capital hhump'.small' (List.cons_ne_nil _ _) (.inr hcased)
            _ = _ := by
              rw [hhump.cut]
              exact congrArg _ hrest

theorem alphanumericParts_of_all (h : ∀ c ∈ text, isAlphanumeric c = true) :
    alphanumericParts text = [text] := by
  induction text with
  | nil => rfl
  | cons c text ih =>
    obtain ⟨hc, htext⟩ := List.forall_mem_cons.1 h
    simp [alphanumericParts, hc, ih htext]

/-- Words in camel case, put together, are camel case and end in letter case. -/
theorem upperCamel_humps {humps : List (List Char)} (h : ∀ w ∈ humps, Humped w) :
    upperCamel (String.ofList humps.flatten) = String.ofList humps.flatten ∧
      endsCased humps.flatten = true := by
  have hall : ∀ c ∈ humps.flatten, isAlphanumeric c = true := by
    intro c hc
    obtain ⟨w, hw, hc⟩ := List.mem_flatten.1 hc
    cases h w hw with
    | word hhump => exact hhump.alphanumeric c hc
  have hparts : alphanumericParts humps.flatten = [humps.flatten] := alphanumericParts_of_all hall
  cases humps with
  | nil => exact ⟨rfl, rfl⟩
  | cons w humps =>
    have hcapitalized : (w :: humps).map capitalizeWord = w :: humps := by
      refine (List.map_congr_left fun w' hw' => ?_).trans (List.map_id _)
      cases h w' hw' with
      | word hhump => exact hhump.capitalizeWord
    constructor
    · rw [upperCamel, String.toList_ofList, words, hparts, List.flatMap_singleton,
        cutAtCase_humps (List.cons_ne_nil w humps) h, List.flatMap_def, hcapitalized]
    · rw [endsCased, hparts]
      cases h w List.mem_cons_self with
      | @word first second rest hhump =>
        simp [isCased, hhump.capital.1]

/-- Whether a word has nothing but ASCII letters and digits, the first two being letters. -/
def isOrdinary : List Char → Bool
  | first :: second :: rest => first.isAlpha && second.isAlpha && rest.all Char.isAlphanum
  | _ => false

theorem lowerWord_of_alphanum (h : ∀ c ∈ word, c.isAlphanum = true) :
    lowerWord word = word.map Char.toLower := by
  have hsigma : 'Σ' ∉ word := by
    intro hmem
    exact absurd (h _ hmem) (by decide)
  rw [lowerWord_eq_flatMap hsigma, List.map_eq_flatMap]
  exact List.flatMap_congr fun c hc => (small_of_isAlphanum (h c hc)).2.2.1

theorem hump_of_alpha {first second : Char} {rest : List Char} (hfirst : first.isAlpha = true)
    (hsecond : second.isAlpha = true) (hrest : ∀ c ∈ rest, c.isAlphanum = true) :
    Hump first.toUpper second.toLower (rest.map Char.toLower) := by
  have hback : ∀ c ∈ second :: rest, c.isAlphanum = true :=
    List.forall_mem_cons.2 ⟨Bool.or_eq_true_iff.2 (.inl hsecond), hrest⟩
  obtain ⟨hcapital, hne, hlowered, _⟩ := capital_of_isAlpha hfirst
  obtain ⟨_, halphanumeric, _, huppercase⟩ :=
    upper_of_isAlphanum (Bool.or_eq_true_iff.2 (.inl hfirst))
  exact
    { capital := hcapital
      small := (capital_of_isAlpha hsecond).2.2.2
      uncut := List.forall_mem_map.2 fun c hc => (small_of_isAlphanum (hback c hc)).1
      alphanumeric := List.forall_mem_cons.2 ⟨halphanumeric,
        List.forall_mem_map.2 fun c hc => (small_of_isAlphanum (hback c hc)).2.1⟩
      uppercase := huppercase
      lowered := ⟨first.toLower, hne, hlowered⟩
      lowercase := List.forall_mem_map.2 fun c hc => (small_of_isAlphanum (hback c hc)).2.2.2 }

theorem humped_capitalizeWord (h : isOrdinary word = true) : Humped (capitalizeWord word) := by
  match word with
  | first :: second :: rest =>
    rw [isOrdinary, Bool.and_eq_true, Bool.and_eq_true, List.all_eq_true] at h
    obtain ⟨⟨hfirst, hsecond⟩, hrest⟩ := h
    have hback : ∀ c ∈ second :: rest, c.isAlphanum = true :=
      List.forall_mem_cons.2 ⟨Bool.or_eq_true_iff.2 (.inl hsecond), hrest⟩
    have hupper : uppercase first = [first.toUpper] :=
      (upper_of_isAlphanum (Bool.or_eq_true_iff.2 (.inl hfirst))).2.2.1
    have hmap : capitalizeWord (first :: second :: rest) =
        first.toUpper :: second.toLower :: rest.map Char.toLower := by
      rw [capitalizeWord, hupper, lowerWord_of_alphanum hback]
      rfl
    rw [hmap]
    exact .word (hump_of_alpha hfirst hsecond hrest)

theorem upperCamel_of_ordinary {name : String}
    (h : ∀ w ∈ words name.toList, isOrdinary w = true) :
    upperCamel (upperCamel name) = upperCamel name ∧
      endsCased (upperCamel name).toList = true := by
  have hhumps : ∀ w ∈ (words name.toList).map capitalizeWord, Humped w :=
    List.forall_mem_map.2 fun w hw => humped_capitalizeWord (h w hw)
  have hname : upperCamel name =
      String.ofList ((words name.toList).map capitalizeWord).flatten := by
    rw [upperCamel, List.flatMap_def]
  rw [hname, String.toList_ofList]
  exact upperCamel_humps hhumps

end SchemaCatalog.Text
