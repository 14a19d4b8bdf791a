import SchemaCatalog.Text.Split

namespace SchemaCatalog.Text

variable {separator : Char} {part text : List Char}

theorem split_of_not_mem (h : separator ∉ part) : split separator part = [part] := by
  induction part with
  | nil => rfl
  | cons c rest ih =>
    simp only [List.mem_cons, not_or] at h
    rw [split, if_neg (by simpa using Ne.symm h.1), ih h.2]

theorem split_append_mark (left right : List Char) :
    split separator (left ++ separator :: right) =
      split separator left ++ split separator right := by
  induction left with
  | nil =>
    rw [List.nil_append, split.eq_2, if_pos (beq_self_eq_true _), split.eq_1, List.singleton_append]
  | cons c left ih =>
    rw [List.cons_append, split, ih, split]
    split
    · rfl
    · cases hleft : split separator left with
      | nil => exact absurd hleft (split_ne_nil separator left)
      | cons part parts => rfl

theorem split_append_cons (h : separator ∉ part) (rest : List Char) :
    split separator (part ++ separator :: rest) = part :: split separator rest := by
  rw [split_append_mark, split_of_not_mem h, List.singleton_append]

theorem split_marked (part : List Char) (parts : List (List Char)) :
    split separator (part ++ parts.flatMap (separator :: ·)) =
      (part :: parts).flatMap (split separator) := by
  induction parts generalizing part with
  | nil => rw [List.flatMap_nil, List.append_nil, List.flatMap_singleton]
  | cons next parts ih =>
    rw [List.flatMap_cons, List.cons_append, split_append_mark, ih]
    rfl

theorem not_mem_of_mem_split (h : part ∈ split separator text) : separator ∉ part := by
  induction text generalizing part with
  | nil =>
    cases List.mem_singleton.1 h
    exact List.not_mem_nil
  | cons c rest ih =>
    rw [split] at h
    split at h
    · rcases List.mem_cons.1 h with heq | hrest
      · rw [heq]
        exact List.not_mem_nil
      · exact ih hrest
    · rename_i hc
      split at h
      · rename_i hnil
        exact absurd hnil (split_ne_nil separator rest)
      · rename_i first parts hsplit
        rcases List.mem_cons.1 h with heq | hparts
        · rw [heq, List.mem_cons]
          rintro (heq | hfirst)
          · exact hc (beq_iff_eq.2 heq.symm)
          · exact ih (hsplit ▸ List.mem_cons_self) hfirst
        · exact ih (hsplit ▸ List.mem_cons_of_mem _ hparts)

theorem split_join {parts : List (List Char)} (hparts : parts ≠ [])
    (h : ∀ part ∈ parts, separator ∉ part) : split separator (join separator parts) = parts := by
  induction parts with
  | nil => exact absurd rfl hparts
  | cons part rest ih =>
    have hpart := h part List.mem_cons_self
    cases rest with
    | nil => exact split_of_not_mem hpart
    | cons next rest =>
      have hjoin : join separator (part :: next :: rest) =
          part ++ separator :: join separator (next :: rest) := rfl
      have hrest := ih (List.cons_ne_nil _ _) fun p hp => h p (List.mem_cons_of_mem _ hp)
      rw [hjoin, split_append_cons hpart, hrest]

theorem join_concat {parts : List (List Char)} (hparts : parts ≠ []) (last : List Char) :
    join separator (parts ++ [last]) = join separator parts ++ separator :: last := by
  induction parts with
  | nil => exact absurd rfl hparts
  | cons part rest ih =>
    cases rest with
    | nil => rfl
    | cons next rest =>
      have hjoin (rest : List (List Char)) : join separator (part :: next :: rest) =
          part ++ separator :: join separator (next :: rest) := rfl
      rw [List.cons_append, List.cons_append, hjoin, hjoin, ← List.cons_append,
        ih (List.cons_ne_nil _ _), List.append_assoc, List.cons_append]

theorem split_eq_iff {parts : List (List Char)} (hparts : parts ≠ []) :
    split separator text = parts ↔
      text = join separator parts ∧ ∀ part ∈ parts, separator ∉ part := by
  constructor
  · intro h
    rw [← h, join_split]
    exact ⟨rfl, fun _ => not_mem_of_mem_split⟩
  · intro h
    rw [h.1, split_join hparts h.2]

theorem splitString_eq_iff {text : String} {parts : List String} (hparts : parts ≠ []) :
    splitString separator text = parts ↔
      text.toList = join separator (parts.map String.toList) ∧
        ∀ part ∈ parts, separator ∉ part.toList := by
  have hsame : splitString separator text = parts ↔
      split separator text.toList = parts.map String.toList := by
    constructor
    · intro h
      simp [← h, splitString]
    · intro h
      simp [splitString, h]
  rw [hsame, split_eq_iff (by simpa using hparts), List.forall_mem_map]

end SchemaCatalog.Text
