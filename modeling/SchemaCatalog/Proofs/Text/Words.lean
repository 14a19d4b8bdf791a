import SchemaCatalog.Text.CamelCase

namespace SchemaCatalog.Text

variable {c : Char} {mode : CaseMode} {word text w : List Char}

theorem flatten_cutAtCase (hne : word = [] ∨ text ≠ []) :
    (cutAtCase mode word text).flatten = word.reverse ++ text := by
  induction mode, word, text using cutAtCase.induct with
  | case1 mode word =>
    rw [hne.resolve_right (absurd rfl)]
    rfl
  | case2 mode word c => simp [cutAtCase]
  | case3 mode word c next rest hrise ih =>
    rw [cutAtCase, if_pos hrise, List.flatten_cons, ih (.inl rfl)]
    simp
  | case4 mode word c next rest hrise hfall ih =>
    rw [cutAtCase, if_neg hrise, if_pos hfall, List.flatten_cons, ih (.inr (List.cons_ne_nil _ _))]
    simp
  | case5 mode word c next rest hrise hfall ih =>
    rw [cutAtCase, if_neg hrise, if_neg hfall, ih (.inr (List.cons_ne_nil _ _))]
    simp

theorem flatten_alphanumericParts (text : List Char) :
    (alphanumericParts text).flatten = text.filter isAlphanumeric := by
  induction text with
  | nil => rfl
  | cons c rest ih =>
    cases hc : isAlphanumeric c with
    | false =>
      rw [List.filter_cons_of_neg (by simp [hc]), ← ih]
      simp [alphanumericParts, hc]
    | true =>
      rw [List.filter_cons_of_pos hc, ← ih]
      cases hparts : alphanumericParts rest with
      | nil => simp [alphanumericParts, hc, hparts]
      | cons part parts => simp [alphanumericParts, hc, hparts]

theorem flatten_words (text : List Char) : (words text).flatten = text.filter isAlphanumeric := by
  have hparts : List.flatten ∘ cutAtCase .unknown [] = id := funext fun part =>
    flatten_cutAtCase (.inl rfl)
  rw [words, List.flatMap_def, List.flatten_flatten, List.map_map, hparts, List.map_id,
    flatten_alphanumericParts]

theorem mem_of_mem_words (hw : w ∈ words text) (hc : c ∈ w) :
    c ∈ text ∧ isAlphanumeric c = true := by
  rw [← List.mem_filter, ← flatten_words]
  exact List.mem_flatten_of_mem hw hc

theorem ne_nil_of_mem_cutAtCase (hmode : mode = .upper → word ≠ [])
    (hw : w ∈ cutAtCase mode word text) : w ≠ [] := by
  -- the word is cut before its last character only where it is in upper case and so has another one
  induction mode, word, text using cutAtCase.induct with
  | case1 mode word => cases hw
  | case2 mode word c =>
    rw [List.mem_singleton.1 hw]
    simp
  | case3 mode word c next rest hrise ih =>
    rw [cutAtCase, if_pos hrise] at hw
    rcases List.mem_cons.1 hw with heq | hw
    · simp [heq]
    · exact ih nofun hw
  | case4 mode word c next rest hrise hfall ih =>
    rw [cutAtCase, if_neg hrise, if_pos hfall] at hw
    rcases List.mem_cons.1 hw with heq | hw
    · simp only [Bool.and_eq_true, beq_iff_eq] at hfall
      simpa [heq] using hmode hfall.1.1
    · exact ih nofun hw
  | case5 mode word c next rest hrise hfall ih =>
    rw [cutAtCase, if_neg hrise, if_neg hfall] at hw
    exact ih (fun _ => List.cons_ne_nil _ _) hw

theorem ne_nil_of_mem_words (hw : w ∈ words text) : w ≠ [] := by
  obtain ⟨part, _, hw⟩ := List.mem_flatMap.1 hw
  have hmode : CaseMode.unknown ≠ .upper := nofun
  exact ne_nil_of_mem_cutAtCase (absurd · hmode) hw

end SchemaCatalog.Text
