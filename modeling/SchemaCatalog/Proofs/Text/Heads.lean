import SchemaCatalog.Proofs.Text.Ascii
import SchemaCatalog.Proofs.Text.Words

namespace SchemaCatalog.Text

def Outside (low high c : Char) : Prop := c.toNat < low.toNat ∨ high.toNat < c.toNat

instance (low high c : Char) : Decidable (Outside low high c) :=
  inferInstanceAs (Decidable (_ ∨ _))

/-- The text is empty or begins with a character that is not among those from `low` to `high`. -/
def StartsOutside (low high : Char) (text : List Char) : Prop :=
  ∀ c ∈ text.head?, Outside low high c

instance (low high : Char) : (text : List Char) → Decidable (StartsOutside low high text)
  | [] => isTrue nofun
  | c :: _ => decidable_of_iff (Outside low high c) (by simp [StartsOutside])

/-- The case map by the two tables does not lead to characters from `low` to `high`, where these are
in ASCII. -/
structure Avoids (low high : Char) (sequences : List (Nat × List Nat)) (shifts : List Shift) :
    Prop where
  low_pos : 0 < low.toNat
  high_lt : high.toNat < 128
  shifts : ∀ shift ∈ shifts, (shift.run.last : Int) + shift.distance < low.toNat ∨
    high.toNat < (shift.run.first : Int) + shift.distance
  sequences : ∀ entry ∈ sequences, ∃ code ∈ entry.2.head?, code < low.toNat ∨ high.toNat < code

variable {low high c : Char} {sequences : List (Nat × List Nat)} {shifts : List Shift}

theorem Avoids.outside (h : Avoids low high sequences shifts) {code : Nat}
    (hcode : code < low.toNat ∨ high.toNat < code) : Outside low high (Char.ofNat code) := by
  have hnat : (Char.ofNat code).toNat = code ∨ (Char.ofNat code).toNat = 0 := by
    by_cases hvalid : code.isValidChar
    · left
      rw [Char.ofNat, dif_pos hvalid]
      rfl
    · right
      rw [Char.ofNat, dif_neg hvalid]
      rfl
  have hlow := h.low_pos
  unfold Outside
  omega

theorem Avoids.shifted (h : Avoids low high sequences shifts) {code : Nat} (hcode : 128 ≤ code) :
    applyShifts shifts code < low.toNat ∨ high.toNat < applyShifts shifts code := by
  have hlow := h.low_pos
  have hhigh := h.high_lt
  unfold applyShifts
  split
  · rename_i shift hshift
    have hclear := h.shifts shift (List.mem_of_find?_eq_some hshift)
    have hcontains := List.find?_some hshift
    simp only [Run.contains, Bool.and_eq_true, decide_eq_true_eq] at hcontains
    omega
  · omega

theorem Avoids.mapCase (h : Avoids low high sequences shifts) (hc : 128 ≤ c.toNat) :
    ∃ first rest, mapCase sequences shifts c = first :: rest ∧ Outside low high first := by
  unfold Text.mapCase
  cases hsequence : sequences.lookup c.toNat with
  | none => exact ⟨_, [], rfl, h.outside (h.shifted hc)⟩
  | some codes =>
    obtain ⟨_, _, htable, _⟩ := List.lookup_eq_some_iff.1 hsequence
    have hentry : (c.toNat, codes) ∈ sequences := by
      rw [htable]
      exact List.mem_append_right _ List.mem_cons_self
    obtain ⟨code, hcode, hclear⟩ := h.sequences _ hentry
    obtain ⟨rest, rfl⟩ := List.head?_eq_some_iff.1 hcode
    exact ⟨_, _, rfl, h.outside hclear⟩

theorem avoids_uppercase_small : Avoids 'a' 'z' uppercaseSequences uppercaseShifts :=
  ⟨by decide, by decide, by decide +kernel, by decide +kernel⟩

theorem avoids_lowercase_underscore : Avoids '_' '_' lowercaseSequences lowercaseShifts :=
  ⟨by decide, by decide, by decide +kernel, by decide +kernel⟩

theorem Avoids.uppercase (h : Avoids low high uppercaseSequences uppercaseShifts)
    (hascii : c.toNat < 128 → Outside low high c.toUpper) :
    ∃ first rest, uppercase c = first :: rest ∧ Outside low high first := by
  by_cases hc : c.toNat < 128
  · exact ⟨_, [], uppercase_of_ascii hc, hascii hc⟩
  · rw [Text.uppercase, if_neg hc]
    exact h.mapCase (Nat.le_of_not_lt hc)

theorem Avoids.lowercase (h : Avoids low high lowercaseSequences lowercaseShifts)
    (hascii : c.toNat < 128 → Outside low high c.toLower) :
    ∃ first rest, lowercase c = first :: rest ∧ Outside low high first := by
  by_cases hc : c.toNat < 128
  · exact ⟨_, [], lowercase_of_ascii hc, hascii hc⟩
  · rw [Text.lowercase, if_neg hc]
    exact h.mapCase (Nat.le_of_not_lt hc)

theorem exists_uppercase (c : Char) :
    ∃ first rest, uppercase c = first :: rest ∧ Outside 'a' 'z' first := by
  apply avoids_uppercase_small.uppercase
  intro hascii
  obtain ⟨n, rfl⟩ := exists_ascii hascii
  revert n
  decide +kernel

theorem exists_lowercase_of_alphanumeric (hc : isAlphanumeric c = true) :
    ∃ first rest, lowercase c = first :: rest ∧ Outside '_' '_' first := by
  apply avoids_lowercase_underscore.lowercase
  intro hascii
  obtain ⟨n, rfl⟩ := exists_ascii hascii
  revert n
  decide +kernel

theorem startsOutside_append {text : List Char}
    (h : ∃ first rest, text = first :: rest ∧ Outside low high first) (more : List Char) :
    StartsOutside low high (text ++ more) := by
  obtain ⟨first, rest, rfl, houtside⟩ := h
  intro d hd
  cases hd
  exact houtside

theorem startsOutside_capitalizeWords {words : List (List Char)}
    (h : ∀ word ∈ words, ∀ c ∈ word,
      ∃ first rest, uppercase c = first :: rest ∧ Outside low high first) :
    StartsOutside low high (words.flatMap capitalizeWord) := by
  induction words with
  | nil => nofun
  | cons word rest ih =>
    obtain ⟨hword, hrest⟩ := List.forall_mem_cons.1 h
    cases word with
    | nil => exact ih hrest
    | cons c word =>
      rw [List.flatMap_cons, capitalizeWord, List.append_assoc]
      exact startsOutside_append (hword c List.mem_cons_self) _

theorem startsOutside_upperCamel (text : String) :
    StartsOutside 'a' 'z' (upperCamel text).toList := by
  rw [upperCamel, String.toList_ofList]
  exact startsOutside_capitalizeWords fun _ _ c _ => exists_uppercase c

theorem exists_lowerWord {word : List Char} (hne : word ≠ [])
    (h : ∀ c ∈ word, isAlphanumeric c = true) :
    ∃ first rest, lowerWord word = first :: rest ∧ Outside '_' '_' first := by
  unfold lowerWord
  split
  · exact absurd rfl hne
  · exact ⟨'ς', [], rfl, by decide⟩
  · obtain ⟨first, more, hlower, houtside⟩ :=
      exists_lowercase_of_alphanumeric (h _ List.mem_cons_self)
    rw [hlower]
    exact ⟨first, _, rfl, houtside⟩

theorem startsOutside_lowerCamel (text : String) :
    StartsOutside '_' '_' (lowerCamel text).toList := by
  have hwords : ∀ w ∈ words text.toList, w ≠ [] ∧ ∀ c ∈ w, isAlphanumeric c = true :=
    fun _ hw => ⟨ne_nil_of_mem_words hw, fun _ hc => (mem_of_mem_words hw hc).2⟩
  unfold lowerCamel
  cases hcut : words text.toList with
  | nil => nofun
  | cons first rest =>
    rw [hcut] at hwords
    obtain ⟨hne, hfirst⟩ := hwords first List.mem_cons_self
    rw [String.toList_ofList]
    exact startsOutside_append (exists_lowerWord hne hfirst) _

end SchemaCatalog.Text
