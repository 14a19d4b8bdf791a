import SchemaCatalog.Text.CamelCase

namespace SchemaCatalog.Text

variable {c : Char}

theorem exists_ascii (h : c.toNat < 128) : ∃ n : Fin 128, c = Char.ofNat n :=
  ⟨⟨c.toNat, h⟩, (Char.ofNat_toNat c).symm⟩

theorem toNat_lt_of_isAlphanum (h : c.isAlphanum = true) : c.toNat < 128 := by
  have hlast {last : Char} (hlast : last.toNat < 128) (hle : c.val ≤ last.val) : c.toNat < 128 :=
    Nat.lt_of_le_of_lt (UInt32.le_iff_toNat_le.1 hle) hlast
  rcases Bool.or_eq_true_iff.1 h with halpha | hdigit
  · rcases Bool.or_eq_true_iff.1 halpha with hupper | hlower
    · exact hlast (by decide) (of_decide_eq_true hupper).2
    · exact hlast (by decide) (of_decide_eq_true (Bool.and_eq_true_iff.1 hlower).2)
  · exact hlast (by decide) (of_decide_eq_true (Bool.and_eq_true_iff.1 hdigit).2)

theorem upper_of_isAlphanum (h : c.isAlphanum = true) :
    isAlphanumeric c = true ∧ isAlphanumeric c.toUpper = true ∧
      uppercase c = [c.toUpper] ∧ uppercase c.toUpper = [c.toUpper] := by
  obtain ⟨n, rfl⟩ := exists_ascii (toNat_lt_of_isAlphanum h)
  revert n
  decide +kernel

theorem capital_of_isAlpha (h : c.isAlpha = true) :
    (isUppercase c.toUpper = true ∧ isLowercase c.toUpper = false) ∧ c.toLower ≠ c.toUpper ∧
      lowercase c.toUpper = [c.toLower] ∧ isLowercase c.toLower = true := by
  obtain ⟨n, rfl⟩ := exists_ascii (toNat_lt_of_isAlphanum (Bool.or_eq_true_iff.2 (.inl h)))
  revert n
  decide +kernel

theorem small_of_isAlphanum (h : c.isAlphanum = true) :
    isUppercase c.toLower = false ∧ isAlphanumeric c.toLower = true ∧
      lowercase c = [c.toLower] ∧ lowercase c.toLower = [c.toLower] := by
  obtain ⟨n, rfl⟩ := exists_ascii (toNat_lt_of_isAlphanum h)
  revert n
  decide +kernel

theorem fold_of_isAlphanum (h : c.isAlphanum = true) :
    c.toLower.isAlphanum = true ∧ c.toUpper.isAlphanum = true ∧
      c.toLower.toLower = c.toLower ∧ c.toUpper.toLower = c.toLower := by
  obtain ⟨n, rfl⟩ := exists_ascii (toNat_lt_of_isAlphanum h)
  revert n
  decide +kernel

theorem head_of_isAlphanum (h : c.isAlphanum = true) :
    c.toLower.isLower = true ∨ c.toLower.isDigit = true := by
  obtain ⟨n, rfl⟩ := exists_ascii (toNat_lt_of_isAlphanum h)
  revert n
  decide +kernel

end SchemaCatalog.Text
