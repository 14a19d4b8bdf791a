import SchemaCatalog.Proofs.Qualification
import SchemaCatalog.Proofs.Schema.Rewriting
import SchemaCatalog.Proofs.Text.Splitting

namespace SchemaCatalog

namespace Reference

def replaceMark (mark put : Char) : List Char → List Char
  | c :: d :: rest =>
    if c = '~' ∧ d = mark then put :: replaceMark mark put rest
    else c :: replaceMark mark put (d :: rest)
  | text => text

theorem replaceMark_cons {mark put c : Char} {rest : List Char}
    (h : c = '~' → rest.head? ≠ some mark) :
    replaceMark mark put (c :: rest) = c :: replaceMark mark put rest := by
  cases rest with
  | nil => rfl
  | cons d rest =>
    rw [replaceMark, if_neg]
    rintro ⟨hc, hd⟩
    exact h hc (congrArg some hd)

theorem head?_replaceMark (mark put : Char) (text : List Char) :
    (replaceMark mark put text).head? = text.head? ∨
      (replaceMark mark put text).head? = some put := by
  cases text with
  | nil => exact .inl rfl
  | cons c rest =>
    cases rest with
    | nil => exact .inl rfl
    | cons d rest =>
      rw [replaceMark]
      split
      · exact .inr rfl
      · exact .inl rfl

/-- Escapes can be undone one kind after the other, those of slashes first. -/
theorem unescapeChars_eq_replaceMark (text : List Char) :
    unescapeChars text = replaceMark '0' '~' (replaceMark '1' '/' text) := by
  fun_induction unescapeChars text with
  | case1 => rfl
  | case2 rest ih =>
    have hslash : replaceMark '1' '/' ('~' :: '1' :: rest) = '/' :: replaceMark '1' '/' rest := by
      rw [replaceMark, if_pos ⟨rfl, rfl⟩]
    rw [hslash, replaceMark_cons (absurd · (by decide)), ih]
  | case3 rest ih =>
    have hkept : replaceMark '1' '/' ('~' :: '0' :: rest) =
        '~' :: '0' :: replaceMark '1' '/' rest := by
      rw [replaceMark_cons (by simp), replaceMark_cons (absurd · (by decide))]
    rw [hkept, replaceMark, if_pos ⟨rfl, rfl⟩, ih]
  | case4 c rest hslash htilde ih =>
    have hfirst : c = '~' → rest.head? ≠ some '1' := by
      intro hc hhead
      obtain ⟨rest', hrest⟩ := List.head?_eq_some_iff.1 hhead
      exact hslash rest' hc hrest
    have hsecond : c = '~' → (replaceMark '1' '/' rest).head? ≠ some '0' := by
      intro hc hhead
      rcases head?_replaceMark '1' '/' rest with hsame | hput
      · obtain ⟨rest', hrest⟩ := List.head?_eq_some_iff.1 (hsame.symm.trans hhead)
        exact htilde rest' hc hrest
      · exact absurd (hput.symm.trans hhead) (by decide)
    rw [replaceMark_cons hfirst, replaceMark_cons hsecond, ih]

theorem slash_not_mem_escapeChars (key : List Char) : '/' ∉ escapeChars key := by
  fun_induction escapeChars key with
  | case1 => exact List.not_mem_nil
  | case2 rest ih => simpa using ih
  | case3 rest ih => simpa using ih
  | case4 c rest hslash _ ih =>
    rw [List.mem_cons]
    rintro (heq | hrest)
    · exact hslash heq.symm
    · exact ih hrest

theorem length_unescapeChars (text : List Char) : (unescapeChars text).length ≤ text.length := by
  fun_induction unescapeChars text with
  | case1 => exact Nat.le_refl _
  | case2 rest ih => exact Nat.succ_le_succ (Nat.le_succ_of_le ih)
  | case3 rest ih => exact Nat.succ_le_succ (Nat.le_succ_of_le ih)
  | case4 c rest _ _ ih => exact Nat.succ_le_succ ih

theorem unescapeChars_of_not_mem {text : List Char} (h : '~' ∉ text) :
    unescapeChars text = text := by
  fun_induction unescapeChars text with
  | case1 => rfl
  | case2 rest ih => exact absurd List.mem_cons_self h
  | case3 rest ih => exact absurd List.mem_cons_self h
  | case4 c rest _ _ ih => rw [ih fun hmem => h (List.mem_cons_of_mem _ hmem)]

theorem unescape_escape (key : String) : unescape (escape key) = key := by
  rw [unescape, escape, String.toList_ofList, unescapeChars_escapeChars, String.ofList_toList]

theorem parse_cut (text : String) : '#' ∉ (parse text).document.toList ∧
    (text = (parse text).document ++ "#" ++ (parse text).pointer ∨
      text = (parse text).document ∧ (parse text).pointer = "") := by
  have hwhole := List.takeWhile_append_dropWhile (p := (· != '#')) (l := text.toList)
  apply And.intro (hash_not_mem_document text)
  simp only [parse, ← String.toList_inj, String.toList_append, String.toList_ofList]
  cases hrest : text.toList.dropWhile (· != '#') with
  | nil =>
    rw [hrest, List.append_nil] at hwhole
    exact .inr ⟨hwhole.symm, rfl⟩
  | cons c rest =>
    have hc : c = '#' := by
      have hstop := List.head?_dropWhile_not (· != '#') text.toList
      simpa [hrest] using hstop
    rw [hrest, hc] at hwhole
    exact .inl (by simpa using hwhole.symm)

end Reference

namespace Registry

open Reference Schema

/-- What leads a pointer into a table of a document. -/
inductive Lead where
  | definitions
  | defs
  | components
  | properties

namespace Lead

def text : Lead → String
  | .definitions => "/definitions/"
  | .defs => "/$defs/"
  | .components => "/components/schemas/"
  | .properties => "/properties/"

def steps : Lead → List String
  | .definitions => ["", "definitions"]
  | .defs => ["", "$defs"]
  | .components => ["", "components", "schemas"]
  | .properties => ["", "properties"]

def table : Lead → Table
  | .properties => .properties
  | _ => .definitions

theorem steps_ne_nil (lead : Lead) : lead.steps ≠ [] := by
  cases lead <;> exact List.cons_ne_nil _ _

theorem text_eq (lead : Lead) :
    lead.text.toList = Text.join '/' (lead.steps.map String.toList) ++ ['/'] := by
  cases lead <;> rfl

theorem slash_not_mem_steps (lead : Lead) : ∀ step ∈ lead.steps, '/' ∉ step.toList := by
  cases lead <;> decide

theorem pointee?_steps (lead : Lead) (document : Schema) (part : String) :
    pointee? document (lead.steps ++ [part]) = document.under? lead.table (unescape part) := by
  cases lead <;> rfl

theorem splitString_eq_iff (lead : Lead) {pointer part : String} :
    Text.splitString '/' pointer = lead.steps ++ [part] ↔
      pointer = lead.text ++ part ∧ '/' ∉ part.toList := by
  have hjoin : Text.join '/' ((lead.steps ++ [part]).map String.toList) =
      (lead.text ++ part).toList := by
    rw [List.map_append, List.map_singleton, Text.join_concat (by simpa using lead.steps_ne_nil),
      String.toList_append, text_eq, List.append_assoc]
    rfl
  rw [Text.splitString_eq_iff (by simp), hjoin, String.toList_inj]
  apply and_congr_right
  intro _
  constructor
  · intro h
    exact h part (List.mem_append_right _ (List.mem_singleton_self part))
  · intro h step hstep
    rcases List.mem_append.1 hstep with hstep | hstep
    · exact lead.slash_not_mem_steps step hstep
    · rw [List.mem_singleton.1 hstep]
      exact h

end Lead

/-- The schema that a pointer leads to in a document. -/
inductive Points (document : Schema) : String → Schema → Prop
  | whole : Points document "" document
  | slash : Points document "/" document
  | entry {part : String} {s : Schema} (lead : Lead) : '/' ∉ part.toList →
    document.under? lead.table (unescape part) = some s →
    Points document (lead.text ++ part) s

variable {document s : Schema} {pointer : String}

theorem points_of_steps (lead : Lead) {part : String}
    (hsteps : Text.splitString '/' pointer = lead.steps ++ [part])
    (h : document.under? lead.table (unescape part) = some s) : Points document pointer s := by
  obtain ⟨heq, hpart⟩ := lead.splitString_eq_iff.1 hsteps
  rw [heq]
  exact .entry lead hpart h

/-- The shapes of pointers that are looked up are those of the grammar. -/
theorem pointee?_eq_some_iff :
    pointee? document (Text.splitString '/' pointer) = some s ↔ Points document pointer s := by
  constructor
  · intro h
    unfold pointee? at h
    split at h
    · rename_i hsteps
      obtain ⟨heq, _⟩ := (Text.splitString_eq_iff (List.cons_ne_nil _ _)).1 hsteps
      have hempty : pointer = "" := String.toList_inj.1 heq
      cases h
      rw [hempty]
      exact .whole
    · rename_i hsteps
      obtain ⟨heq, _⟩ := (Text.splitString_eq_iff (List.cons_ne_nil _ _)).1 hsteps
      have hslash : pointer = "/" := String.toList_inj.1 heq
      cases h
      rw [hslash]
      exact .slash
    · rename_i hsteps
      exact points_of_steps .definitions hsteps h
    · rename_i hsteps
      exact points_of_steps .defs hsteps h
    · rename_i hsteps
      exact points_of_steps .properties hsteps h
    · rename_i hsteps
      exact points_of_steps .components hsteps h
    · cases h
  · intro h
    cases h with
    | whole => rfl
    | slash => rfl
    | entry lead hpart hs => rw [lead.splitString_eq_iff.2 ⟨rfl, hpart⟩, lead.pointee?_steps, hs]

/-- The escaped form of a key leads to the entry under exactly this key. -/
theorem points_escape_iff (lead : Lead) (key : String) :
    Points document (lead.text ++ escape key) s ↔ document.under? lead.table key = some s := by
  have hpart : '/' ∉ (escape key).toList := by
    rw [escape, String.toList_ofList]
    exact slash_not_mem_escapeChars _
  rw [← pointee?_eq_some_iff, lead.splitString_eq_iff.2 ⟨rfl, hpart⟩, lead.pointee?_steps,
    unescape_escape]

section

variable {registry : Registry} {text : String}

theorem resolve_unknown (hnone : registry.get? (documentOf (parse text)) = none) :
    registry.resolve text = .error (.unknownDocument (documentOf (parse text)) text) := by
  simp only [resolve, hnone]

theorem resolve_eq_ok_iff (hdocument : registry.get? (documentOf (parse text)) = some document) :
    registry.resolve text = .ok s ↔ Points document (parse text).pointer s := by
  have hpoints : pointee? document (parse text).segments = some s ↔
      Points document (parse text).pointer s := pointee?_eq_some_iff
  rw [← hpoints]
  simp only [resolve, hdocument]
  cases pointee? document (parse text).segments with
  | none => simp
  | some found => simp

theorem resolve_astray (hdocument : registry.get? (documentOf (parse text)) = some document)
    (hnone : ∀ s, ¬ Points document (parse text).pointer s) :
    registry.resolve text = .error (.unresolvedPointer text none) := by
  have hpointee : pointee? document (parse text).segments = none := by
    apply Option.eq_none_iff_forall_ne_some.2
    intro s hs
    exact hnone s (pointee?_eq_some_iff.1 hs)
  simp only [resolve, hdocument, hpointee]

end

/-- What resolving a reference gives. The document before the first `#` has to be registered, the
root being meant where nothing stands there; and then the pointer after it has to lead somewhere in
the document by the grammar. -/
theorem resolve_grammar (registry : Registry) (text : String) :
    ('#' ∉ (parse text).document.toList ∧
      (text = (parse text).document ++ "#" ++ (parse text).pointer ∨
        text = (parse text).document ∧ (parse text).pointer = "")) ∧
    (registry.get? (documentOf (parse text)) = none →
      registry.resolve text = .error (.unknownDocument (documentOf (parse text)) text)) ∧
    (∀ document, registry.get? (documentOf (parse text)) = some document →
      (∀ s, registry.resolve text = .ok s ↔ Points document (parse text).pointer s) ∧
      ((∀ s, ¬ Points document (parse text).pointer s) →
        registry.resolve text = .error (.unresolvedPointer text none))) ∧
    (∀ part, (unescape part).toList =
      replaceMark '0' '~' (replaceMark '1' '/' part.toList)) ∧
    ∀ document (lead : Lead) key s,
      Points document (lead.text ++ escape key) s ↔ document.under? lead.table key = some s := by
  refine ⟨parse_cut text, resolve_unknown, ?_, ?_, ?_⟩
  · intro document hdocument
    exact ⟨fun s => resolve_eq_ok_iff hdocument, resolve_astray hdocument⟩
  · intro part
    rw [unescape, String.toList_ofList, unescapeChars_eq_replaceMark]
  · intro document lead key s
    exact points_escape_iff lead key

end Registry

end SchemaCatalog
