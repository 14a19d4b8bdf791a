import SchemaCatalog.Loading
import SchemaCatalog.Proofs.Steps

namespace SchemaCatalog

namespace Text

/-- A joined text ends in the last part, with a separator in front unless that is all. -/
theorem join_last {separator : Char} {parts : List (List Char)} {last : List Char}
    (h : parts.getLast? = some last) : join separator parts = last ∨
      ∃ front, join separator parts = front ++ separator :: last := by
  induction parts with
  | nil => cases h
  | cons part rest ih =>
    cases rest with
    | nil =>
      cases h
      exact .inl rfl
    | cons next rest =>
      have hjoin : join separator (part :: next :: rest) =
          part ++ separator :: join separator (next :: rest) := rfl
      rw [List.getLast?_cons_cons] at h
      rcases ih h with heq | ⟨front, heq⟩
      · exact .inr ⟨part, by rw [hjoin, heq]⟩
      · refine .inr ⟨part ++ separator :: front, ?_⟩
        rw [hjoin, heq, List.append_assoc, List.cons_append]

theorem suffix_append_cons_iff {separator : Char} {front last ending : List Char}
    (hending : separator ∉ ending) :
    ending <:+ front ++ separator :: last ↔ ending <:+ last := by
  have hlast : separator :: last <:+ front ++ separator :: last := List.suffix_append _ _
  constructor
  · intro hsuffix
    by_cases hlength : ending.length ≤ last.length
    · have hshort : ending <:+ separator :: last :=
        List.suffix_of_suffix_length_le hsuffix hlast (Nat.le_succ_of_le hlength)
      exact List.suffix_of_suffix_length_le hshort (List.suffix_cons _ _) hlength
    · have hlong : separator :: last <:+ ending :=
        List.suffix_of_suffix_length_le hlast hsuffix (Nat.lt_of_not_le hlength)
      exact absurd (hlong.subset List.mem_cons_self) hending
  · intro hsuffix
    exact hsuffix.trans ((List.suffix_cons _ _).trans hlast)

end Text

theorem endsIn_last {path last ending : String} (hending : '/' ∉ ending.toList)
    (h : (Text.splitString '/' path).getLast? = some last) :
    endsIn (path.map Char.toLower) ending = endsIn (last.map Char.toLower) ending := by
  rw [Text.splitString, List.getLast?_map] at h
  obtain ⟨part, hpart, hlast⟩ := Option.map_eq_some_iff.1 h
  subst hlast
  have hjoin : path.toList = part ∨ ∃ front, path.toList = front ++ '/' :: part := by
    rw [← Text.join_split '/' path.toList]
    exact Text.join_last hpart
  rw [endsIn, endsIn, String.toList_map, String.toList_map, String.toList_ofList]
  rcases hjoin with heq | ⟨front, heq⟩
  · rw [heq]
  · have hslash : Char.toLower '/' = '/' := by decide
    rw [heq, List.map_append, List.map_cons, hslash, Bool.eq_iff_iff, List.isSuffixOf_iff_suffix,
      List.isSuffixOf_iff_suffix]
    exact Text.suffix_append_cons_iff hending

theorem holdsYaml_last {path last : String}
    (h : (Text.splitString '/' path).getLast? = some last) : holdsYaml path = holdsYaml last := by
  rw [holdsYaml, holdsYaml, endsIn_last (by decide) h, endsIn_last (by decide) h]

namespace Files

variable {files : Files} {place : List String} {content : ByteArray}

/-- A place that steps have led to: the steps back come first, and there are folders all the way. -/
structure Reached (files : Files) (place : List String) : Prop where
  backFirst : ∃ back names, place = List.replicate back ".." ++ names ∧ ".." ∉ names
  folders : ∀ front rest, place = front ++ rest → rest ≠ [] → files.node? front = some .folder
  folder : files.node? place = some .folder

theorem node?_back (files : Files) (back : Nat) :
    files.node? (List.replicate back "..") = some .folder := by
  rw [node?, if_pos]
  simp [isFixedFolder]

theorem reached_back (files : Files) (back : Nat) : Reached files (List.replicate back "..") := by
  refine ⟨⟨back, [], by simp, by simp⟩, fun front rest heq _ => ?_, node?_back files back⟩
  have hfront : front = List.replicate front.length ".." := by
    refine List.eq_replicate_iff.2 ⟨rfl, fun name hname => ?_⟩
    have hmem : name ∈ List.replicate back ".." := heq ▸ List.mem_append_left _ hname
    exact List.eq_of_mem_replicate hmem
  rw [hfront]
  exact node?_back files _

theorem placeFrom_replicate (back : Nat) :
    placeFrom (List.replicate back "..") [".."] = List.replicate (back + 1) ".." := by
  cases back with
  | zero => rfl
  | succ back => simp [placeFrom, List.getLast?_replicate, List.replicate_succ']

/-- A step back stays among folders. -/
theorem Reached.back (h : Reached files place) : Reached files (placeFrom place [".."]) := by
  obtain ⟨back, names, heq, hnames⟩ := h.backFirst
  rcases List.eq_nil_or_concat names with hnil | ⟨names, name, hcons⟩
  · rw [hnil, List.append_nil] at heq
    rw [heq, placeFrom_replicate]
    exact reached_back files _
  · rw [hcons, List.concat_eq_append, ← List.append_assoc] at heq
    have hname : name ≠ ".." := fun heq => hnames (by simp [hcons, heq])
    have hlast : place.getLast? = some name := by
      rw [heq, List.getLast?_concat]
    by_cases htop : name = "/"
    · -- there is nothing above the top
      have hplace : placeFrom place [".."] = place := by
        simp [placeFrom, hlast, htop]
      rw [hplace]
      exact h
    · have hplace : placeFrom place [".."] = List.replicate back ".." ++ names := by
        rw [placeFrom, hlast]
        simp [placeFrom, heq]
      rw [hplace]
      refine ⟨⟨back, names, rfl, fun hmem => hnames (by simp [hcons, hmem])⟩, ?_, ?_⟩
      · intro front rest hrest hne
        refine h.folders front (rest ++ [name]) ?_ (by simp)
        rw [heq, hrest, List.append_assoc]
      · exact h.folders _ [name] heq (by simp)

theorem placeFrom_step {step : String} (h : step ≠ "..") :
    placeFrom place [step] = place ++ [step] := by
  rw [placeFrom, placeFrom]
  exact h

theorem Reached.step {step : String} (h : Reached files place) (hstep : step ≠ "..")
    (hfolder : files.node? (place ++ [step]) = some .folder) : Reached files (place ++ [step]) := by
  obtain ⟨back, names, heq, hnames⟩ := h.backFirst
  refine ⟨⟨back, names ++ [step], by rw [heq, List.append_assoc], ?_⟩, ?_, hfolder⟩
  · intro hmem
    rcases List.mem_append.1 hmem with hmem | hmem
    · exact hnames hmem
    · exact hstep (List.mem_singleton.1 hmem).symm
  · intro front rest hrest hne
    rcases List.eq_nil_or_concat rest with hnil | ⟨rest, last, hcons⟩
    · exact absurd hnil hne
    · subst hcons
      rw [List.concat_eq_append, ← List.append_assoc] at hrest
      obtain ⟨hplace, _⟩ := List.append_inj' hrest rfl
      cases rest with
      | nil =>
        rw [List.append_nil] at hplace
        exact hplace ▸ h.folder
      | cons next rest => exact h.folders front _ hplace (by simp)

theorem follow_cons {step : String} {rest : List String} {node : FileNode}
    (h : files.follow place (step :: rest) = some node) : files.node? place = some .folder ∧
      files.follow (placeFrom place [step]) rest = some node := by
  rw [follow] at h
  cases hnode : files.node? place with
  | none =>
    rw [hnode] at h
    cases h
  | some found =>
    cases found with
    | folder =>
      rw [hnode] at h
      exact ⟨rfl, h⟩
    | file _ =>
      rw [hnode] at h
      cases h

/-- Steps that lead to a file end in a step to its name. -/
theorem follow_file {steps : List String} (hplace : Reached files place)
    (h : files.follow place steps = some (.file content)) : ∃ front last,
      steps.getLast? = some last ∧ files.node? (front ++ [last]) = some (.file content) := by
  induction steps generalizing place with
  | nil =>
    rw [follow, hplace.folder] at h
    cases h
  | cons step rest ih =>
    have hrest := (follow_cons h).2
    by_cases hstep : step = ".."
    · subst hstep
      obtain ⟨front, last, hlast, hnode⟩ := ih hplace.back hrest
      refine ⟨front, last, ?_, hnode⟩
      rw [List.getLast?_cons, hlast]
      rfl
    · rw [placeFrom_step hstep] at hrest
      cases rest with
      | nil => exact ⟨place, step, rfl, hrest⟩
      | cons next rest =>
        rw [List.getLast?_cons_cons]
        exact ih (hplace.step hstep (follow_cons hrest).1) hrest

/-- The last step of a path that can lead to a file is what ends the text of the path. -/
theorem getLast?_steps {path last : String} (hends : Path.endsInFolder path = false)
    (h : (Path.steps path).getLast? = some last) :
    (Text.splitString '/' path).getLast? = some last := by
  have hparts : Text.splitString '/' path ≠ [] := by
    rw [Text.splitString]
    exact fun hnil => Text.split_ne_nil '/' _ (List.map_eq_nil_iff.1 hnil)
  rcases List.eq_nil_or_concat (Text.splitString '/' path) with hnil | ⟨front, part, hsplit⟩
  · exact absurd hnil hparts
  rw [List.concat_eq_append] at hsplit
  rw [Path.endsInFolder, hsplit, List.getLast?_concat] at hends
  have hkept : [part].filter (fun part => !part.isEmpty && part != ".") = [part] :=
    List.filter_cons_of_pos (by simpa using hends)
  rw [Path.steps, hsplit, List.filter_append, hkept] at h
  rw [hsplit, List.getLast?_concat]
  split at h
  · rw [← List.cons_append, List.getLast?_concat] at h
    exact h
  · rw [List.getLast?_concat] at h
    exact h

theorem exists_of_at? {path : String} (h : files.at? path = some (.file content)) :
    ∃ front last, (Text.splitString '/' path).getLast? = some last ∧
      (front ++ [last], FileNode.file content) ∈ files.nodes := by
  have hfollow : files.follow [] (Path.steps path) = some (.file content) ∧
      Path.endsInFolder path = false := by
    rw [at?] at h
    grind
  obtain ⟨front, last, hlast, hnode⟩ := follow_file (reached_back files 0) hfollow.1
  refine ⟨front, last, getLast?_steps hfollow.2 hlast, ?_⟩
  rw [node?] at hnode
  split at hnode
  · cases hnode
  · obtain ⟨before, after, heq, _⟩ := List.lookup_eq_some_iff.1 hnode
    rw [heq]
    exact List.mem_append_right _ List.mem_cons_self

theorem text_eq_ok {path text : String} (h : files.text path = .ok text) :
    ∃ content, files.at? path = some (.file content) ∧ String.fromUTF8? content = some text := by
  rw [Files.text, read] at h
  cases hat : files.at? path with
  | none =>
    rw [hat] at h
    cases h
  | some node =>
    cases node with
    | folder =>
      rw [hat] at h
      cases h
    | file content =>
      refine ⟨content, rfl, ?_⟩
      cases hcontent : String.fromUTF8? content with
      | none => simp [hat, hcontent] at h
      | some found => simpa [hat, hcontent] using h

theorem exists_of_load {path : String} {document : Json} (h : files.load path = .ok document) :
    ∃ place content, (place, FileNode.file content) ∈ files.nodes ∧
      readContent (place.getLast?.getD "") ((String.fromUTF8? content).getD "") = .ok document := by
  rw [load] at h
  obtain ⟨text, htext, hread⟩ := bind_eq_ok h
  obtain ⟨content, hat, hcontent⟩ := text_eq_ok htext
  obtain ⟨front, last, hlast, hmem⟩ := exists_of_at? hat
  refine ⟨front ++ [last], content, hmem, ?_⟩
  rw [List.getLast?_concat, hcontent]
  rw [readContent, holdsYaml_last hlast] at hread
  exact hread

theorem referencedDocuments_subset {path : String} {document : Json}
    (h : files.load path = .ok document) :
    document.referencedDocuments ⊆ files.referencedDocuments := by
  obtain ⟨place, content, hmem, hread⟩ := exists_of_load h
  intro id hid
  refine List.mem_flatMap.2 ⟨_, hmem, ?_⟩
  simp only [hread]
  exact hid

end Files

theorem Remote.referencedDocuments_subset {remote : Remote} {address : String} {document : Json}
    (h : remote.load address = .ok document) :
    document.referencedDocuments ⊆ remote.referencedDocuments := by
  obtain ⟨body, hbody, _⟩ := bind_eq_ok h
  intro id hid
  refine List.mem_flatMap.2 ⟨address, remote.answers_listed hbody, ?_⟩
  rw [h]
  exact hid

theorem Files.linkedDocuments_subset {files : Files} {remote : Option Remote} {origin : Origin}
    {document : Json} (h : files.loadFrom remote origin = .ok document) :
    document.referencedDocuments ⊆ files.linkedDocuments remote := by
  cases origin with
  | file path => exact List.subset_append_of_subset_left _ (referencedDocuments_subset h)
  | remote address =>
    cases remote with
    | none => cases h
    | some remote =>
      exact List.subset_append_of_subset_right _ (Remote.referencedDocuments_subset h)

end SchemaCatalog
