import SchemaCatalog.Operation.Parameters
import SchemaCatalog.Proofs.Steps
import Mathlib.Data.List.Basic

namespace SchemaCatalog.Operation

variable {listed own before merged : List Json} {parameter : Json}
  {key : Option String × Option String}

/-- The parameters with a key, in order. -/
def keyed (key : Option String × Option String) (parameters : List Json) : List Json :=
  parameters.filter (parameterKey · == key)

theorem keyed_append (first rest : List Json) :
    keyed key (first ++ rest) = keyed key first ++ keyed key rest :=
  List.filter_append first rest

theorem keyed_cons_self (rest : List Json) :
    keyed (parameterKey parameter) (parameter :: rest) =
      parameter :: keyed (parameterKey parameter) rest :=
  List.filter_cons_of_pos (beq_self_eq_true _)

theorem keyed_cons_of_ne (h : parameterKey parameter ≠ key) (rest : List Json) :
    keyed key (parameter :: rest) = keyed key rest :=
  List.filter_cons_of_neg (mt eq_of_beq h)

theorem mem_keyed_iff : parameter ∈ keyed key listed ↔
    parameter ∈ listed ∧ parameterKey parameter = key := by
  rw [keyed, List.mem_filter, beq_iff_eq]

theorem keyed_eq_nil (h : key ∉ listed.map parameterKey) : keyed key listed = [] := by
  apply List.eq_nil_iff_forall_not_mem.2
  intro parameter hparameter
  obtain ⟨hmem, hkey⟩ := mem_keyed_iff.1 hparameter
  exact h (List.mem_map.2 ⟨parameter, hmem, hkey⟩)

theorem keyed_self (hnodup : (listed.map parameterKey).Nodup) (h : parameter ∈ listed) :
    keyed (parameterKey parameter) listed = [parameter] := by
  induction listed with
  | nil => cases h
  | cons first rest ih =>
    obtain ⟨hfirst, hrest⟩ := List.nodup_cons.1 hnodup
    rcases List.mem_cons.1 h with heq | hmem
    · rw [heq, keyed_cons_self, keyed_eq_nil hfirst]
    · have hne : parameterKey first ≠ parameterKey parameter := by
        intro hkey
        exact hfirst (hkey ▸ List.mem_map_of_mem hmem)
      rw [keyed_cons_of_ne hne, ih hrest hmem]

theorem keys_putParameter (parameter : Json) (merged : List Json) :
    (putParameter parameter merged).map parameterKey =
      if parameterKey parameter ∈ merged.map parameterKey then merged.map parameterKey
      else merged.map parameterKey ++ [parameterKey parameter] := by
  induction merged with
  | nil => rfl
  | cons other rest ih =>
    rw [putParameter]
    by_cases hkey : parameterKey other = parameterKey parameter
    · simp [hkey]
    · rw [if_neg (mt eq_of_beq hkey), List.map_cons, ih, List.map_cons]
      by_cases hmem : parameterKey parameter ∈ rest.map parameterKey
      · rw [if_pos hmem, if_pos (List.mem_cons_of_mem _ hmem)]
      · have hnew := List.not_mem_cons_of_ne_of_not_mem (Ne.symm hkey) hmem
        rw [if_neg hmem, if_neg hnew, List.cons_append]

theorem keyed_putParameter_self (hnodup : (merged.map parameterKey).Nodup) :
    keyed (parameterKey parameter) (putParameter parameter merged) = [parameter] := by
  induction merged with
  | nil => exact keyed_cons_self []
  | cons other rest ih =>
    obtain ⟨hother, hrest⟩ := List.nodup_cons.1 hnodup
    rw [putParameter]
    by_cases hkey : parameterKey other = parameterKey parameter
    · rw [if_pos (beq_iff_eq.2 hkey), keyed_cons_self, keyed_eq_nil (hkey ▸ hother)]
    · rw [if_neg (mt eq_of_beq hkey), keyed_cons_of_ne hkey, ih hrest]

theorem keyed_putParameter_of_ne (h : parameterKey parameter ≠ key) (merged : List Json) :
    keyed key (putParameter parameter merged) = keyed key merged := by
  induction merged with
  | nil => exact keyed_cons_of_ne h []
  | cons other rest ih =>
    rw [putParameter]
    by_cases hkey : parameterKey other = parameterKey parameter
    · rw [if_pos (beq_iff_eq.2 hkey), keyed_cons_of_ne h, keyed_cons_of_ne (hkey ▸ h)]
    · rw [if_neg (mt eq_of_beq hkey)]
      by_cases hother : parameterKey other = key
      · rw [← hother] at ih ⊢
        rw [keyed_cons_self, keyed_cons_self, ih]
      · rw [keyed_cons_of_ne hother, keyed_cons_of_ne hother, ih]

/-- One parameter for each key of a list: the last that has the key, where the first that has it
stands. -/
structure Merges (listed merged : List Json) : Prop where
  keys : merged.map parameterKey = (listed.map parameterKey).eraseDups
  last : ∀ key, keyed key merged = (keyed key listed).getLast?.toList

namespace Merges

theorem nil : Merges [] [] where
  keys := rfl
  last _ := rfl

theorem nodup (h : Merges listed merged) : (merged.map parameterKey).Nodup := by
  rw [h.keys]
  exact nodup_eraseDups _

theorem put (h : Merges listed merged) (parameter : Json) :
    Merges (listed ++ [parameter]) (putParameter parameter merged) where
  keys := by
    rw [keys_putParameter, List.map_append, List.map_singleton, eraseDups_concat, h.keys]
    simp only [List.mem_eraseDups]
  last key := by
    rw [keyed_append]
    by_cases hkey : parameterKey parameter = key
    · subst hkey
      rw [keyed_putParameter_self h.nodup, keyed_cons_self, List.getLast?_append]
      rfl
    · have hnone : keyed key [] = [] := rfl
      rw [keyed_putParameter_of_ne hkey, h.last, keyed_cons_of_ne hkey, hnone, List.append_nil]

theorem putAll (h : Merges listed merged) (parameters : List Json) :
    Merges (listed ++ parameters)
      (parameters.foldl (fun merged parameter => putParameter parameter merged) merged) := by
  induction parameters generalizing listed merged with
  | nil => rwa [List.append_nil]
  | cons parameter rest ih =>
    rw [List.append_cons]
    exact ih (h.put parameter)

theorem eq_flatMap (h : Merges listed merged) :
    merged = (listed.map parameterKey).eraseDups.flatMap fun key =>
      (keyed key listed).getLast?.toList := by
  rw [← h.keys, List.flatMap_map]
  have hself : ∀ parameter ∈ merged,
      (keyed (parameterKey parameter) listed).getLast?.toList = [parameter] := by
    intro parameter hparameter
    rw [← h.last, keyed_self h.nodup hparameter]
  rw [List.flatMap_congr hself]
  exact (List.flatMap_singleton' merged).symm

end Merges

/-- The last of the operation's own parameters with the same key, if there is one. -/
def overridden (own : List Json) (parameter : Json) : Json :=
  (keyed (parameterKey parameter) own).getLast?.getD parameter

/-- Own parameters replace the shared ones with the same key where these stand. The others come
after them. -/
theorem Merges.in_place (hbefore : Merges listed before) (h : Merges (listed ++ own) merged) :
    ∃ added, merged = before.map (overridden own) ++ added ∧
      ∀ parameter ∈ added, parameter ∈ own ∧ parameterKey parameter ∉ listed.map parameterKey := by
  have hkept : ∀ parameter ∈ before,
      (keyed (parameterKey parameter) (listed ++ own)).getLast?.toList =
        [overridden own parameter] := by
    intro parameter hparameter
    have hlast := hbefore.last (parameterKey parameter)
    rw [keyed_self hbefore.nodup hparameter] at hlast
    rw [keyed_append, List.getLast?_append, overridden]
    cases (keyed (parameterKey parameter) own).getLast? with
    | none => exact hlast.symm
    | some _ => rfl
  have heq := h.eq_flatMap
  rw [List.map_append, List.eraseDups_append, ← hbefore.keys, List.flatMap_append,
    List.flatMap_map, List.flatMap_congr hkept, ← List.map_eq_flatMap] at heq
  refine ⟨_, heq, ?_⟩
  intro parameter hparameter
  obtain ⟨key, hkey, hlast⟩ := List.mem_flatMap.1 hparameter
  have hnew : key ∉ listed.map parameterKey := by
    have hremoved := List.mem_eraseDups.1 hkey
    simp only [List.removeAll, List.mem_filter, List.elem_eq_contains, Bool.not_eq_true',
      List.contains_eq_mem, decide_eq_false_iff_not] at hremoved
    exact hremoved.2
  have hfound := mem_keyed_iff.1 (List.mem_of_getLast? (Option.mem_toList.1 hlast))
  have hshared : parameterKey parameter ∉ listed.map parameterKey := hfound.2 ▸ hnew
  apply And.intro _ hshared
  apply (List.mem_append.1 hfound.1).resolve_left
  intro hmem
  exact hshared (List.mem_map_of_mem hmem)

theorem mergeInto_eq (document : Json) (merged parameters : List Json) :
    mergeInto document merged parameters = (parameters.mapM document.follow >>= fun followed =>
      .ok (followed.foldl (fun merged parameter => putParameter parameter merged) merged)) := by
  induction parameters generalizing merged with
  | nil => rfl
  | cons parameter rest ih =>
    rw [mergeInto, List.mapM_cons]
    cases document.follow parameter with
    | error e => rfl
    | ok followed =>
      change mergeInto document (putParameter followed merged) rest = _
      rw [ih]
      cases rest.mapM document.follow <;> rfl

theorem mergeInto_merges {document : Json} {parameters followed : List Json}
    (hfollow : parameters.mapM document.follow = .ok followed) :
    ∃ merged, mergeInto document [] parameters = .ok merged ∧ Merges followed merged := by
  refine ⟨_, ?_, Merges.nil.putAll followed⟩
  rw [mergeInto_eq, hfollow]
  rfl

theorem merges_of_mergeInto {document : Json} {parameters : List Json}
    (h : mergeInto document [] parameters = .ok merged) :
    ∃ followed, parameters.mapM document.follow = .ok followed ∧ Merges followed merged := by
  rw [mergeInto_eq] at h
  obtain ⟨followed, hfollow, heq⟩ := bind_eq_ok h
  cases heq
  exact ⟨followed, hfollow, Merges.nil.putAll followed⟩

/-- The parameters of an operation are those that it shares and its own, one for each name and
place: the last of them all, where the first is listed. Shared ones stay where they are and are
replaced there by own ones; own ones with another key follow. -/
theorem mergedParameters_merges {document operation : Json} {shared inherited own : List Json}
    (hshared : shared.mapM document.follow = .ok inherited)
    (hown : (listMember operation "parameters").mapM document.follow = .ok own) :
    ∃ merged, mergedParameters document operation shared = .ok merged ∧
      Merges (inherited ++ own) merged ∧
      ∃ before added, mergeInto document [] shared = .ok before ∧ Merges inherited before ∧
        merged = before.map (overridden own) ++ added ∧
        ∀ parameter ∈ added,
          parameter ∈ own ∧ parameterKey parameter ∉ inherited.map parameterKey := by
  have hall : (shared ++ listMember operation "parameters").mapM document.follow =
      .ok (inherited ++ own) := by
    rw [List.mapM_append, hshared, hown]
    rfl
  obtain ⟨before, hbefore, hinherited⟩ := mergeInto_merges hshared
  obtain ⟨merged, hmerged, hmerges⟩ := mergeInto_merges hall
  obtain ⟨added, heq, hadded⟩ := hinherited.in_place hmerges
  exact ⟨merged, hmerged, hmerges, before, added, hbefore, hinherited, heq, hadded⟩

def numericLimit : Json :=
  .object [("name", .string "limit"), ("in", .string "query"), ("type", .string "integer")]

def limitedListing : Json := .object [("parameters", .object [("limit", numericLimit)])]

def listingParameters : List Json := [
  .object [("name", .string "limit"), ("in", .string "query"), ("type", .string "string")],
  .object [("name", .string "sort"), ("in", .string "query"), ("type", .string "string")],
  .object [("name", .string "limit"), ("in", .string "query"), ("type", .string "boolean")]]

def listingOperation : Json :=
  .object [("parameters", .array [
    .object [("name", .string "page"), ("in", .string "query"), ("type", .string "string")],
    .object [("$ref", .string "#/parameters/limit")]])]

theorem mergedParameters_merges_listing : ∃ merged,
    mergedParameters limitedListing listingOperation listingParameters = .ok merged ∧
      merged.map parameterKey = [(some "limit", some "query"), (some "sort", some "query"),
        (some "page", some "query")] ∧
      keyed (some "limit", some "query") merged = [numericLimit] := by
  have hshared : listingParameters.mapM limitedListing.follow = .ok listingParameters := rfl
  have hown : (listMember listingOperation "parameters").mapM limitedListing.follow = .ok [
      .object [("name", .string "page"), ("in", .string "query"), ("type", .string "string")],
      numericLimit] := rfl
  obtain ⟨merged, hmerged, hmerges, _⟩ := mergedParameters_merges hshared hown
  refine ⟨merged, hmerged, ?_, ?_⟩
  · rw [hmerges.keys]
    decide +kernel
  · rw [hmerges.last]
    rfl

end SchemaCatalog.Operation
