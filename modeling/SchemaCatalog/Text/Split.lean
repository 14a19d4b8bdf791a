namespace SchemaCatalog.Text

/-- The parts between the separators; there is always one. -/
def split (separator : Char) : List Char → List (List Char)
  | [] => [[]]
  | c :: rest =>
    if c == separator then [] :: split separator rest
    else
      match split separator rest with
      | [] => [[c]]
      | part :: parts => (c :: part) :: parts

def join (separator : Char) : List (List Char) → List Char
  | [] => []
  | [part] => part
  | part :: parts => part ++ separator :: join separator parts

theorem split_ne_nil (separator : Char) (text : List Char) : split separator text ≠ [] := by
  induction text with
  | nil => simp [split]
  | cons c rest ih =>
    simp only [split]
    split
    · simp
    · split <;> simp

theorem join_split (separator : Char) (text : List Char) :
    join separator (split separator text) = text := by
  induction text with
  | nil => rfl
  | cons c rest ih =>
    cases hs : split separator rest with
    | nil => exact absurd hs (split_ne_nil separator rest)
    | cons part parts =>
      rw [hs] at ih
      by_cases hc : c = separator
      · simp [split, hs, hc, join, ih]
      · cases parts <;> simp_all [split, join]

def splitString (separator : Char) (text : String) : List String :=
  (split separator text.toList).map String.ofList

end SchemaCatalog.Text
