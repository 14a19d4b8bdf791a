import SchemaCatalog.Json.Fragment
import SchemaCatalog.Proofs.Resolution

namespace SchemaCatalog.Json

/-- A step into a value: to the member under a key, or to the item at a position. -/
inductive Step where
  | key (name : String)
  | index (position : Nat)
deriving DecidableEq, Repr

def Step.text : Step → String
  | .key name => name
  | .index i => i.repr

theorem Step.text_eq_empty_iff {step : Step} : step.text = "" ↔ step = .key "" := by
  cases step with
  | key name => rw [text, key.injEq]
  | index i =>
    have hdigits : Nat.toDigits 10 i ≠ [] := Nat.toDigits_ne_nil
    rw [text, Nat.repr_eq_ofList_toDigits, String.ofList_eq_empty_iff]
    exact ⟨fun h => absurd h hdigits, fun h => by cases h⟩

/-- Where a step leads. The positions in an array are machine words. -/
def step? : Json → Step → Option Json
  | .object members, .key name => members.lookup name
  | .array items, .index i => if i < Nat.pow 2 64 then items[i]? else none
  | _, _ => none

def at? (value : Json) : List Step → Option Json
  | [] => some value
  | step :: rest => (value.step? step).bind (at? · rest)

def extend (path : String) (parts : List String) : String :=
  parts.foldl (fun path part => path ++ "/" ++ part) path

/-- The fragment that points along a path: a hash, and the steps escaped. -/
def pointer (path : List Step) : String :=
  extend "#" (path.map fun step => Reference.escape step.text)

section

variable {document value : Json} {path : List Step}

theorem position?_digits {digits : List Char} (hne : digits ≠ [])
    (hdigits : ∀ c ∈ digits, c.isDigit) (hbound : Nat.ofDigitChars 10 digits 0 < Nat.pow 2 64) :
    position? (String.ofList digits) = some (Nat.ofDigitChars 10 digits 0) := by
  have hread : (digits.isEmpty || !digits.all Char.isDigit) = false := by
    simpa [hne] using hdigits
  have hvalue : digits.foldl (fun n d => n * 10 + (d.toNat - 48)) 0 =
      Nat.ofDigitChars 10 digits 0 := by
    simp only [Nat.ofDigitChars_eq_foldl, Nat.mul_comm]
    rfl
  rw [position?, String.toList_ofList]
  split
  · have hplus := hdigits '+' List.mem_cons_self
    exact absurd hplus (by decide)
  · rw [hvalue, hread, if_neg Bool.false_ne_true]
    exact if_pos hbound

theorem position?_text {i : Nat} (h : i < Nat.pow 2 64) :
    position? (Step.index i).text = some i := by
  have hvalue : Nat.ofDigitChars 10 (Nat.toDigits 10 i) 0 = i :=
    Nat.ofDigitChars_toDigits (by decide) (by decide)
  have hdigits : ∀ c ∈ Nat.toDigits 10 i, c.isDigit :=
    fun c hc => Nat.isDigit_of_mem_toDigits (by decide) (by decide) hc
  have hread := position?_digits Nat.toDigits_ne_nil hdigits (hvalue.symm ▸ h)
  rw [Step.text, Nat.repr_eq_ofList_toDigits, hread, hvalue]

theorem child?_of_step? {step : Step} (h : document.step? step = some value) :
    document.child? step.text = some value := by
  cases document with
  | object members =>
    cases step with
    | key name => exact h
    | index i => cases h
  | array items =>
    cases step with
    | key name => cases h
    | index i =>
      rw [step?] at h
      split at h
      · rename_i hi
        rw [child?, position?_text hi]
        exact h
      · cases h
  | _ => cases step <;> cases h

theorem at?_append (document : Json) (front back : List Step) :
    document.at? (front ++ back) = (document.at? front).bind (at? · back) := by
  induction front generalizing document with
  | nil => rfl
  | cons step rest ih =>
    rw [List.cons_append, at?, at?, Option.bind_assoc]
    exact Option.bind_congr fun next _ => ih next

theorem descend?_of_at? (h : document.at? path = some value) :
    document.descend? (path.map Step.text) = some value := by
  induction path generalizing document with
  | nil => exact h
  | cons step rest ih =>
    obtain ⟨next, hstep, hrest⟩ := Option.bind_eq_some_iff.1 h
    rw [List.map_cons, descend?, child?_of_step? hstep, Option.bind_some, ih hrest]

end

theorem toList_extend (path : String) (parts : List String) :
    (extend path parts).toList = path.toList ++ parts.flatMap fun part => '/' :: part.toList := by
  induction parts generalizing path with
  | nil => simp [extend]
  | cons part parts ih =>
    rw [extend, List.foldl_cons, ← extend, ih]
    simp

variable {parts : List String}

theorem dropWhile_slashes
    (hfirst : ∀ part ∈ (parts.dropWhile String.isEmpty).head?, part.toList.head? ≠ some '/') :
    (parts.flatMap fun part => '/' :: part.toList).dropWhile (· == '/') =
      ((parts.dropWhile String.isEmpty).flatMap fun part => '/' :: part.toList).drop 1 := by
  induction parts with
  | nil => rfl
  | cons part rest ih =>
    rw [List.flatMap_cons, List.cons_append, List.dropWhile_cons_of_pos (by decide)]
    by_cases hempty : part.isEmpty
    · rw [List.dropWhile_cons_of_pos hempty] at hfirst ⊢
      rw [String.isEmpty_iff.1 hempty, String.toList_empty, List.nil_append, ih hfirst]
    · rw [List.dropWhile_cons_of_neg hempty] at hfirst ⊢
      rw [List.flatMap_cons, List.cons_append, List.drop_one, List.tail_cons]
      cases hpart : part.toList with
      | nil => exact absurd (String.isEmpty_iff.2 (String.toList_eq_nil_iff.1 hpart)) hempty
      | cons c cs =>
        have hc : c ≠ '/' := by
          have hhead := hfirst part rfl
          rintro rfl
          exact hhead (hpart ▸ rfl)
        rw [List.cons_append, List.dropWhile_cons_of_neg (by simpa using hc)]

/-- The parts that a fragment is read as, where no slash opens the first that is not empty. -/
theorem fragmentPath_extend
    (hfirst : ∀ part ∈ (parts.dropWhile String.isEmpty).head?, part.toList.head? ≠ some '/') :
    fragmentPath (extend "#" parts) =
      ((parts.dropWhile String.isEmpty).flatMap (Text.splitString '/')).map Reference.unescape := by
  have hhashes : (extend "#" parts).toList.dropWhile (· == '#') =
      parts.flatMap fun part => '/' :: part.toList := by
    have hash : "#".toList = ['#'] := rfl
    rw [toList_extend, hash, List.singleton_append, List.dropWhile_cons_of_pos (by decide)]
    cases parts with
    | nil => rfl
    | cons part rest => exact List.dropWhile_cons_of_neg (by decide)
  have hempty (part : String) (h : part ∈ (parts.dropWhile String.isEmpty).head?) :
      part.toList ≠ [] := by
    have hstop := List.head?_dropWhile_not String.isEmpty parts
    rw [h] at hstop
    simpa using hstop
  rw [fragmentPath, hhashes, dropWhile_slashes hfirst]
  cases hkept : parts.dropWhile String.isEmpty with
  | nil => rfl
  | cons part rest =>
    have hpart : part.toList ≠ [] := hempty part (by rw [hkept]; rfl)
    have hsplit : Text.split '/' (part.toList ++ rest.flatMap fun part => '/' :: part.toList) =
        (part.toList :: rest.map String.toList).flatMap (Text.split '/') := by
      rw [← Text.split_marked, List.flatMap_map]
    rw [List.flatMap_cons, List.cons_append, List.drop_one, List.tail_cons]
    split
    · rename_i hnil
      exact absurd (List.append_eq_nil_iff.1 hnil).1 hpart
    · have hunescape : (fun chars => String.ofList (Reference.unescapeChars chars)) =
          Reference.unescape ∘ String.ofList := by
        funext chars
        rw [Function.comp, Reference.unescape, String.toList_ofList]
      rw [hsplit, hunescape]
      simp [Text.splitString, List.map_flatMap, List.flatMap_map]

theorem splitString_escape (key : String) :
    Text.splitString '/' (Reference.escape key) = [Reference.escape key] := by
  rw [Text.splitString, Reference.escape, String.toList_ofList,
    Text.split_of_not_mem (Reference.slash_not_mem_escapeChars _), List.map_singleton]

theorem isEmpty_escape (key : String) : (Reference.escape key).isEmpty = key.isEmpty := by
  have hempty : Reference.escape key = "" ↔ key = "" := by
    constructor
    · intro h
      rw [← Reference.unescape_escape key, h]
      rfl
    · rintro rfl
      rfl
  rw [Bool.eq_iff_iff, String.isEmpty_iff, String.isEmpty_iff, hempty]

theorem fragmentPath_pointer (path : List Step) :
    fragmentPath (pointer path) = (path.map Step.text).dropWhile String.isEmpty := by
  have hescaped : path.map (fun step => Reference.escape step.text) =
      (path.map Step.text).map Reference.escape := by
    rw [List.map_map]
    rfl
  have hempty : String.isEmpty ∘ Reference.escape = String.isEmpty := funext isEmpty_escape
  rw [pointer, hescaped, fragmentPath_extend, List.dropWhile_map, hempty]
  · generalize (path.map Step.text).dropWhile String.isEmpty = parts
    induction parts with
    | nil => rfl
    | cons part rest ih =>
      rw [List.map_cons, List.flatMap_cons, splitString_escape, List.singleton_append,
        List.map_cons, ih, Reference.unescape_escape]
  · rw [List.dropWhile_map, List.head?_map]
    intro part hpart hslash
    obtain ⟨key, _, rfl⟩ := Option.map_eq_some_iff.1 hpart
    rw [Reference.escape, String.toList_ofList] at hslash
    exact Reference.slash_not_mem_escapeChars _ (List.mem_of_mem_head? hslash)

def Step.read (step : Step) : List String :=
  (Text.splitString '/' step.text).map Reference.unescape

/-- A text that is one part of a fragment and stands for itself there. -/
def Plain (text : String) : Prop := '/' ∉ text.toList ∧ Reference.unescape text = text

instance (text : String) : Decidable (Plain text) :=
  inferInstanceAs (Decidable (_ ∧ _))

theorem Step.read_of_plain {step : Step} (h : Plain step.text) : step.read = [step.text] := by
  rw [read, Text.splitString, Text.split_of_not_mem h.1, List.map_singleton, List.map_singleton,
    String.ofList_toList, h.2]

theorem plain_index (i : Nat) : Plain (Step.index i).text := by
  have hdigits (c : Char) (hc : c.isDigit = false) : c ∉ (Step.index i).text.toList := by
    intro hmem
    rw [Step.text, Nat.repr_eq_ofList_toDigits, String.toList_ofList] at hmem
    have hdigit := Nat.isDigit_of_mem_toDigits (by decide) (by decide) hmem
    exact Bool.false_ne_true (hc.symm.trans hdigit)
  refine ⟨hdigits '/' (by decide), ?_⟩
  rw [Reference.unescape, Reference.unescapeChars_of_not_mem (hdigits '~' (by decide)),
    String.ofList_toList]

theorem exists_read_of_not_plain {name : String} (h : ¬ Plain name) :
    ∃ part rest, (Step.key name).read = part :: rest ∧ part ≠ name := by
  by_cases hslash : '/' ∈ name.toList
  · obtain ⟨first, rest, hname, hfirst⟩ := List.eq_append_cons_of_mem hslash
    refine ⟨Reference.unescape (String.ofList first),
      ((Text.split '/' rest).map String.ofList).map Reference.unescape, ?_, ?_⟩
    · rw [Step.read, Step.text, Text.splitString, hname, Text.split_append_cons hfirst,
        List.map_cons, List.map_cons]
    · -- undoing escapes does not make the part longer, and the name goes on after it
      intro heq
      have hchars := congrArg String.toList heq
      have hshorter := Reference.length_unescapeChars first
      rw [Reference.unescape, String.toList_ofList, String.toList_ofList, hname] at hchars
      rw [hchars, List.length_append, List.length_cons] at hshorter
      omega
  · refine ⟨Reference.unescape name, [], ?_, fun heq => h ⟨hslash, heq⟩⟩
    rw [Step.read, Step.text, Text.splitString, Text.split_of_not_mem hslash, List.map_singleton,
      List.map_singleton, String.ofList_toList]

theorem fragmentPath_unescaped {path : List Step}
    (hfirst : ∀ step ∈ path.head?, step.text ≠ "" ∧ step.text.toList.head? ≠ some '/') :
    fragmentPath (extend "#" (path.map Step.text)) = path.flatMap Step.read := by
  have hkept : (path.map Step.text).dropWhile String.isEmpty = path.map Step.text := by
    cases path with
    | nil => rfl
    | cons step rest =>
      have hstep := (hfirst step rfl).1
      rw [List.map_cons, List.dropWhile_cons_of_neg (by simpa using hstep)]
  rw [fragmentPath_extend, hkept, List.flatMap_map, List.map_flatMap]
  · rfl
  · rw [hkept, List.head?_map]
    intro part hpart
    obtain ⟨step, hstep, rfl⟩ := Option.map_eq_some_iff.1 hpart
    exact (hfirst step hstep).2

theorem flatMap_read {path : List Step} (h : ∀ name, .key name ∈ path → Plain name) :
    path.flatMap Step.read = path.map Step.text := by
  induction path with
  | nil => rfl
  | cons step rest ih =>
    have hplain : Plain step.text := by
      cases step with
      | key name => exact h name List.mem_cons_self
      | index i => exact plain_index i
    rw [List.flatMap_cons, Step.read_of_plain hplain, List.singleton_append, List.map_cons,
      ih fun name hname => h name (List.mem_cons_of_mem _ hname)]

theorem descend?_read_iff {name : String} {value : Json} :
    (object [(name, value)]).descend? (Step.key name).read = some value ↔ Plain name := by
  constructor
  · intro h
    by_contra hplain
    obtain ⟨part, rest, hread, hpart⟩ := exists_read_of_not_plain hplain
    rw [hread, descend?, child?, Entries.lookup_cons, if_neg hpart] at h
    cases h
  · intro h
    have hread : (Step.key name).read = [name] := Step.read_of_plain h
    rw [hread, descend?, child?, Entries.lookup_cons, if_pos rfl]
    rfl

theorem navigate_eq_ok_iff {document value : Json} {fragment : String} :
    document.navigate fragment = .ok value ↔
      document.descend? (fragmentPath fragment) = some value := by
  unfold navigate
  cases document.descend? (fragmentPath fragment) with
  | none => simp
  | some found => simp

/-- Navigating by the pointer of a path gives the value at its end. The empty keys that a path
starts with are passed over, so then this value has to be found without them. -/
theorem navigate_pointer {document value : Json} {path : List Step}
    (h : document.at? path = some value) :
    (path.head? ≠ some (.key "") → document.navigate (pointer path) = .ok value) ∧
    (document.navigate (pointer path) = .ok value ↔
      document.descend? ((path.map Step.text).dropWhile String.isEmpty) = some value) := by
  have hiff : document.navigate (pointer path) = .ok value ↔
      document.descend? ((path.map Step.text).dropWhile String.isEmpty) = some value := by
    rw [navigate_eq_ok_iff, fragmentPath_pointer]
  refine ⟨?_, hiff⟩
  intro hfirst
  rw [hiff, ← descend?_of_at? h]
  cases path with
  | nil => rfl
  | cons step rest =>
    have hstep : ¬ step.text.isEmpty := by
      rw [String.isEmpty_iff, Step.text_eq_empty_iff]
      rintro rfl
      exact hfirst rfl
    rw [List.map_cons, List.dropWhile_cons_of_neg hstep]

def awkward : Json :=
  .object [("~1", .object [("", .array [.null, .object [("#/", .string "found")]])])]

theorem navigate_pointer_awkward :
    awkward.at? [.key "~1", .key "", .index 1, .key "#/"] = some (.string "found") ∧
    pointer [.key "~1", .key "", .index 1, .key "#/"] = "#/~01//1/#~1" ∧
    awkward.navigate "#/~01//1/#~1" = .ok (.string "found") := by
  have hat : awkward.at? [.key "~1", .key "", .index 1, .key "#/"] = some (.string "found") := rfl
  have hpointer : pointer [.key "~1", .key "", .index 1, .key "#/"] = "#/~01//1/#~1" := by
    decide +kernel
  have hfound := (navigate_pointer hat).1 (by decide)
  rw [hpointer] at hfound
  exact ⟨hat, hpointer, hfound⟩

/-- The empty key that a pointer starts with is not looked up. -/
theorem exists_navigate_pointer_ne : ¬ ∀ {document value : Json} {path : List Step},
    document.at? path = some value → document.navigate (pointer path) = .ok value := by
  intro hclaim
  have hat : (Json.object [("", .object [("a", .nat 1)])]).at? [.key "", .key "a"] =
    some (.nat 1) := rfl
  have hpointer : pointer [.key "", .key "a"] = "#//a" := by decide +kernel
  have hfound := hclaim hat
  rw [hpointer] at hfound
  cases hfound

end SchemaCatalog.Json
