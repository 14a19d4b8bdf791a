import SchemaCatalog.Proofs.Naming
import SchemaCatalog.Proofs.Text.CamelCase
import SchemaCatalog.Proofs.Text.Words

namespace SchemaCatalog

namespace Text

variable {a b c d word text : List Char}

/-- A text of ASCII letters and digits that is another but for letter case. -/
structure Recases (spelled word : List Char) : Prop where
  alphanum : ∀ c ∈ spelled, c.isAlphanum = true
  folded : spelled.map Char.toLower = word.map Char.toLower

theorem Recases.append (h : Recases a b) (h' : Recases c d) : Recases (a ++ c) (b ++ d) := by
  refine ⟨List.forall_mem_append.2 ⟨h.alphanum, h'.alphanum⟩, ?_⟩
  rw [List.map_append, List.map_append, h.folded, h'.folded]

theorem recases_toLower (h : ∀ c ∈ word, c.isAlphanum = true) :
    Recases (word.map Char.toLower) word := by
  refine ⟨List.forall_mem_map.2 fun c hc => (fold_of_isAlphanum (h c hc)).1, ?_⟩
  rw [List.map_map]
  exact List.map_congr_left fun c hc => (fold_of_isAlphanum (h c hc)).2.2.1

theorem recases_lowerWord (h : ∀ c ∈ word, c.isAlphanum = true) :
    Recases (lowerWord word) word := by
  rw [lowerWord_of_alphanum h]
  exact recases_toLower h

theorem recases_capitalizeWord (h : ∀ c ∈ word, c.isAlphanum = true) :
    Recases (capitalizeWord word) word := by
  cases word with
  | nil => exact recases_toLower h
  | cons c rest =>
    obtain ⟨hc, hrest⟩ := List.forall_mem_cons.1 h
    obtain ⟨_, hupper, _, hfolded⟩ := fold_of_isAlphanum hc
    have hfirst : Recases [c.toUpper] [c] := by
      refine ⟨List.forall_mem_singleton.2 hupper, ?_⟩
      rw [List.map_singleton, List.map_singleton, hfolded]
    rw [capitalizeWord, (upper_of_isAlphanum hc).2.2.1]
    exact hfirst.append (recases_lowerWord hrest)

theorem recases_capitalizeWords {list : List (List Char)}
    (h : ∀ w ∈ list, ∀ c ∈ w, c.isAlphanum = true) :
    Recases (list.flatMap capitalizeWord) list.flatten := by
  induction list with
  | nil => exact ⟨nofun, rfl⟩
  | cons w rest ih =>
    obtain ⟨hw, hrest⟩ := List.forall_mem_cons.1 h
    exact (recases_capitalizeWord hw).append (ih hrest)

theorem isAlphanum_of_mem_words {w : List Char} {c : Char} (hascii : ∀ c ∈ text, c.toNat < 128)
    (hw : w ∈ words text) (hc : c ∈ w) : c.isAlphanum = true := by
  obtain ⟨hmem, halphanumeric⟩ := mem_of_mem_words hw hc
  rwa [isAlphanumeric_of_ascii (hascii c hmem)] at halphanumeric

/-- A name in camel case begins as its first word does in lower case. -/
theorem lowerCamel_ascii {name : String} (hascii : ∀ c ∈ name.toList, c.toNat < 128) :
    Recases (lowerCamel name).toList (name.toList.filter Char.isAlphanum) ∧
      ∀ c ∈ (lowerCamel name).toList.head?, c.isLower = true ∨ c.isDigit = true := by
  have hletters : name.toList.filter Char.isAlphanum = (words name.toList).flatten := by
    rw [flatten_words]
    exact List.filter_congr fun c hc => (isAlphanumeric_of_ascii (hascii c hc)).symm
  have hwords (w : List Char) (hw : w ∈ words name.toList) :
      w ≠ [] ∧ ∀ c ∈ w, c.isAlphanum = true :=
    ⟨ne_nil_of_mem_words hw, fun c hc => isAlphanum_of_mem_words hascii hw hc⟩
  rw [hletters]
  unfold lowerCamel
  cases hcut : words name.toList with
  | nil => exact ⟨⟨nofun, rfl⟩, nofun⟩
  | cons first rest =>
    rw [hcut] at hwords
    obtain ⟨⟨hne, hfirst⟩, hrest⟩ := List.forall_mem_cons.1 hwords
    have hmore : Recases (rest.flatMap capitalizeWord) rest.flatten :=
      recases_capitalizeWords fun w hw => (hrest w hw).2
    rw [String.toList_ofList]
    refine ⟨(recases_lowerWord hfirst).append hmore, ?_⟩
    cases first with
    | nil => exact absurd rfl hne
    | cons c first =>
      rw [lowerWord_of_alphanum hfirst]
      intro d hd
      cases hd
      exact head_of_isAlphanum (hfirst c List.mem_cons_self)

end Text

namespace Naming

/-- The identifiers in camel case: an underscore alone, or ASCII letters and digits that begin with
a small letter, or with a digit behind an underscore. -/
inductive IsIdentifier : List Char → Prop
  | blank : IsIdentifier ['_']
  | word {first : Char} {rest : List Char} : first.isLower = true →
    (∀ c ∈ rest, c.isAlphanum = true) → IsIdentifier (first :: rest)
  | number {first : Char} {rest : List Char} : first.isDigit = true →
    (∀ c ∈ rest, c.isAlphanum = true) → IsIdentifier ('_' :: first :: rest)

variable {camel : String}

theorem isIdentifier_guardField (halphanum : ∀ c ∈ camel.toList, c.isAlphanum = true)
    (hhead : ∀ c ∈ camel.toList.head?, c.isLower = true ∨ c.isDigit = true) :
    IsIdentifier (guardField camel).toList := by
  unfold guardField
  split
  · exact .blank
  · rename_i first rest hcamel
    rw [hcamel] at halphanum hhead
    obtain ⟨_, hrest⟩ := List.forall_mem_cons.1 halphanum
    split
    · rename_i hdigit
      rw [String.toList_append, hcamel]
      exact .number hdigit hrest
    · rename_i hdigit
      rw [hcamel]
      exact .word ((hhead first rfl).resolve_right hdigit) hrest

theorem filter_guardField (halphanum : ∀ c ∈ camel.toList, c.isAlphanum = true) :
    (guardField camel).toList.filter Char.isAlphanum = camel.toList := by
  have hall : camel.toList.filter Char.isAlphanum = camel.toList := List.filter_eq_self.2 halphanum
  rcases guardField_cases camel with h | h
  · rw [h, hall]
  · rw [h, String.toList_append, List.filter_append, hall]
    rfl

/-- A field whose name is in ASCII gets an identifier, in which the letters and digits of the name
stand in order, if not in the same case. -/
theorem fieldName_identifies {name : String} (hascii : ∀ c ∈ name.toList, c.toNat < 128) :
    IsIdentifier (fieldName name .json).toList ∧
      ((fieldName name .json).toList.filter Char.isAlphanum).map Char.toLower =
        (name.toList.filter Char.isAlphanum).map Char.toLower := by
  obtain ⟨hrecases, hhead⟩ := Text.lowerCamel_ascii hascii
  refine ⟨isIdentifier_guardField hrecases.alphanum hhead, ?_⟩
  rw [fieldName, filter_guardField hrecases.alphanum, hrecases.folded]

theorem fieldName_identifies_mixed :
    (∀ c ∈ "--404 HTTPError_code".toList, c.toNat < 128) ∧
      fieldName "--404 HTTPError_code" .json = "_404HttpErrorCode" ∧
      IsIdentifier "_404HttpErrorCode".toList := by
  have hascii : ∀ c ∈ "--404 HTTPError_code".toList, c.toNat < 128 := by simp
  have hname : fieldName "--404 HTTPError_code" .json = "_404HttpErrorCode" := by decide +kernel
  refine ⟨hascii, hname, ?_⟩
  have hidentifier := (fieldName_identifies hascii).1
  rwa [hname] at hidentifier

end Naming

end SchemaCatalog
