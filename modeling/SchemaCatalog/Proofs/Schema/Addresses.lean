import SchemaCatalog.Proofs.Navigation
import SchemaCatalog.Proofs.Schema.Algebra
import SchemaCatalog.Proofs.Schema.Children
import SchemaCatalog.Proofs.Schema.RoundTrip
import SchemaCatalog.Proofs.Schema.Size
import SchemaCatalog.Proofs.Schema.Visits

namespace SchemaCatalog.Schema

open Json (Step)

/-- The keywords that hold schemas, in the order in which they are walked over. -/
def holders : List Keyword :=
  [.properties, .patternProperties, .definitions, .items, .additionalProperties, .allOf, .anyOf,
    .oneOf, .not]

def keyedSchemas (table : Option (Entries Schema)) : List (Option Step × Schema) :=
  (table.getD []).map fun e => (some (.key e.1), e.2)

def placedSchemas (list : List Schema) : List (Option Step × Schema) :=
  list.mapIdx fun i c => (some (.index i), c)

def heldItems : Option (Items Schema) → List (Option Step × Schema)
  | none => []
  | some (.single c) => [(none, c)]
  | some (.tuple list) => placedSchemas list

def heldAdditional : Option (Additional Schema) → List (Option Step × Schema)
  | some (.schema c) => [(none, c)]
  | _ => []

/-- The schemas that a keyword holds, each with the step to it, if the keyword holds several. -/
def held (s : Schema) : Keyword → List (Option Step × Schema)
  | .properties => keyedSchemas s.properties
  | .patternProperties => keyedSchemas s.patternProperties
  | .definitions => keyedSchemas s.definitions
  | .items => heldItems s.items
  | .additionalProperties => heldAdditional s.additionalProperties
  | .allOf => placedSchemas (s.allOf.getD [])
  | .anyOf => placedSchemas (s.anyOf.getD [])
  | .oneOf => placedSchemas (s.oneOf.getD [])
  | .not => s.not.toList.map fun c => (none, c)
  | _ => []

def placesUnder (keyword : Keyword) (held : List (Option Step × Schema)) :
    List (List Step × Schema) :=
  held.map fun e => (.key keyword.name :: e.1.toList, e.2)

def places (s : Schema) : List (List Step × Schema) :=
  holders.flatMap fun keyword => placesUnder keyword (s.held keyword)

def under (path : String) (place : List Step × Schema) : String × Schema :=
  (Json.extend path (place.1.map Step.text), place.2)

section

variable {path : String} (keyword : Keyword)

theorem under_step (step : Step) (c : Schema) :
    under path ([.key keyword.name, step], c) =
      (path ++ "/" ++ s!"{keyword.name}/{step.text}", c) := by
  simp only [under, Json.extend, List.map_cons, List.map_nil, List.foldl_cons, List.foldl_nil,
    Step.text, String.append_assoc]
  rfl

theorem table_places (table : Option (Entries Schema)) :
    (children.table keyword.name table).map (fun e => (path ++ "/" ++ e.1, e.2)) =
      (placesUnder keyword (keyedSchemas table)).map (under path) := by
  simp only [children.table, placesUnder, keyedSchemas, List.map_map]
  apply List.map_congr_left
  intro e _
  exact (under_step keyword (.key e.1) e.2).symm

theorem positions_places (list : List Schema) :
    (children.positions keyword.name list).map (fun e => (path ++ "/" ++ e.1, e.2)) =
      (placesUnder keyword (placedSchemas list)).map (under path) := by
  apply List.ext_getElem
  · simp [children.positions, placesUnder, placedSchemas]
  · intro i _ _
    simp only [children.positions, placesUnder, placedSchemas, List.getElem_map,
      List.getElem_mapIdx]
    exact (under_step keyword (.index i) _).symm

theorem items_places (items : Option (Items Schema)) :
    (itemChildren items).map (fun e => (path ++ "/" ++ e.1, e.2)) =
      (placesUnder .items (heldItems items)).map (under path) := by
  cases items with
  | none => rfl
  | some items =>
    cases items with
    | single c => rfl
    | tuple list => exact positions_places .items list

theorem additional_places (additional : Option (Additional Schema)) :
    (additionalChildren additional).map (fun e => (path ++ "/" ++ e.1, e.2)) =
      (placesUnder .additionalProperties (heldAdditional additional)).map (under path) := by
  cases additional with
  | none => rfl
  | some additional => cases additional <;> rfl

end

theorem children_places (path : String) (s : Schema) :
    s.children.map (fun e => (path ++ "/" ++ e.1, e.2)) = s.places.map (under path) := by
  have hchildren : s.children = children.table Keyword.properties.name s.properties ++
      children.table Keyword.patternProperties.name s.patternProperties ++
      children.table Keyword.definitions.name s.definitions ++ itemChildren s.items ++
      additionalChildren s.additionalProperties ++
      children.positions Keyword.allOf.name (s.allOf.getD []) ++
      children.positions Keyword.anyOf.name (s.anyOf.getD []) ++
      children.positions Keyword.oneOf.name (s.oneOf.getD []) ++
      s.not.toList.map (fun c => (Keyword.not.name, c)) := rfl
  have hnot : (s.not.toList.map fun c => (Keyword.not.name, c)).map
      (fun e => (path ++ "/" ++ e.1, e.2)) = (placesUnder .not (s.held .not)).map (under path) := by
    simp only [held, placesUnder, List.map_map]
    rfl
  rw [hchildren]
  simp only [List.map_append, table_places, positions_places, items_places, additional_places, hnot]
  simp [places, holders, held]

theorem mem_keyedSchemas {table : Option (Entries Schema)} {step : Option Step} {c : Schema}
    (h : (step, c) ∈ keyedSchemas table) :
    ∃ entries key, table = some entries ∧ step = some (.key key) ∧ (key, c) ∈ entries := by
  obtain ⟨⟨key, c⟩, hmem, heq⟩ := List.mem_map.1 h
  cases heq
  cases table with
  | none => cases hmem
  | some entries => exact ⟨entries, key, rfl, rfl, hmem⟩

theorem mem_placedSchemas {list : List Schema} {step : Option Step} {c : Schema}
    (h : (step, c) ∈ placedSchemas list) :
    ∃ i, step = some (.index i) ∧ list[i]? = some c := by
  obtain ⟨i, hi, heq⟩ := List.mem_mapIdx.1 h
  cases heq
  exact ⟨i, rfl, List.getElem?_eq_getElem hi⟩

theorem mem_placedSchemas_getD {lists : Option (List Schema)} {step : Option Step} {c : Schema}
    (h : (step, c) ∈ placedSchemas (lists.getD [])) :
    ∃ list i, lists = some list ∧ step = some (.index i) ∧ list[i]? = some c := by
  obtain ⟨i, hstep, hi⟩ := mem_placedSchemas h
  cases lists with
  | none => cases hi
  | some list => exact ⟨list, i, rfl, hstep, hi⟩

theorem exists_of_mem_places {s c : Schema} {steps : List Step} (h : (steps, c) ∈ s.places) :
    ∃ keyword ∈ holders, ∃ step, (step, c) ∈ s.held keyword ∧
      steps = .key keyword.name :: step.toList := by
  obtain ⟨keyword, hkeyword, hplace⟩ := List.mem_flatMap.1 h
  obtain ⟨⟨step, c⟩, hheld, heq⟩ := List.mem_map.1 hplace
  cases heq
  exact ⟨keyword, hkeyword, step, hheld, rfl⟩

theorem child_of_place {place : List Step × Schema} {s : Schema} (h : place ∈ s.places) :
    Child place.2 s := by
  have hunder : under "" place ∈ s.children.map fun e => ("" ++ "/" ++ e.1, e.2) := by
    rw [children_places]
    exact List.mem_map_of_mem h
  obtain ⟨e, he, heq⟩ := List.mem_map.1 hunder
  have hchild : e.2 = place.2 := congrArg Prod.snd heq
  exact hchild ▸ child_of_mem_children he

/-- The addresses of the subschemas, and last that of the schema itself. -/
def addresses (s : Schema) : List (List Step × Schema) :=
  s.places.attach.flatMap (fun place =>
    place.1.2.addresses.map fun e => (place.1.1 ++ e.1, e.2)) ++ [([], s)]
termination_by s.size
decreasing_by exact size_child (child_of_place place.2)

theorem addresses_eq (s : Schema) :
    s.addresses = s.places.flatMap (fun place =>
      place.2.addresses.map fun e => (place.1 ++ e.1, e.2)) ++ [([], s)] := by
  rw [addresses]
  conv_rhs => rw [← List.attach_map_subtype_val s.places, List.flatMap_map]

theorem mem_addresses_self (s : Schema) : ([], s) ∈ s.addresses := by
  rw [addresses_eq]
  exact List.mem_append_right _ (List.mem_singleton_self _)

theorem mem_addresses {s : Schema} {place e : List Step × Schema} (hplace : place ∈ s.places)
    (he : e ∈ place.2.addresses) : (place.1 ++ e.1, e.2) ∈ s.addresses := by
  rw [addresses_eq]
  exact List.mem_append_left _ (List.mem_flatMap.2 ⟨place, hplace, List.mem_map_of_mem he⟩)

theorem nodes_addresses (path : String) (s : Schema) :
    s.nodes path = s.addresses.map (under path) := by
  induction s using child_induction generalizing path with
  | h s ih =>
    have hnodesOf : nodesOf path s.children =
        (s.places.map (under path)).flatMap fun e => e.2.nodes e.1 := by
      rw [← children_places, List.flatMap_map]
      rfl
    have hplace (place : List Step × Schema) (h : place ∈ s.places) :
        (under path place).2.nodes (under path place).1 =
          (place.2.addresses.map fun e => (place.1 ++ e.1, e.2)).map (under path) := by
      have hbelow := ih place.2 (child_of_place h) (under path place).1
      rw [List.map_map]
      refine hbelow.trans (List.map_congr_left fun e _ => ?_)
      simp [under, Json.extend]
    rw [nodes_children, hnodesOf, addresses_eq, List.map_append, List.flatMap_map, List.map_flatMap,
      List.flatMap_congr hplace]
    rfl

def Apart (place place' : List Step × Schema) : Prop :=
  ¬ place.1 <+: place'.1 ∧ ¬ place'.1 <+: place.1

theorem Apart.append {place place' : List Step × Schema} (h : Apart place place')
    (rest rest' : List Step) : ¬ place.1 ++ rest <+: place'.1 ++ rest' := by
  intro hprefix
  have hplace : place.1 <+: place'.1 ++ rest' := (List.prefix_append _ _).trans hprefix
  rcases List.prefix_or_prefix_of_prefix hplace (List.prefix_append _ _) with hunder | hunder
  · exact h.1 hunder
  · exact h.2 hunder

def StepsDiffer (e e' : Option Step × Schema) : Prop :=
  ∃ step step', e.1 = some step ∧ e'.1 = some step' ∧ step ≠ step'

theorem stepsDiffer_keyedSchemas {table : Option (Entries Schema)} (h : DistinctTable table) :
    (keyedSchemas table).Pairwise StepsDiffer := by
  rw [keyedSchemas, List.pairwise_map]
  apply (List.pairwise_map.1 h).imp
  intro e e' hne
  exact ⟨_, _, rfl, rfl, fun heq => hne (Step.key.inj heq)⟩

theorem stepsDiffer_placedSchemas (list : List Schema) :
    (placedSchemas list).Pairwise StepsDiffer := by
  rw [placedSchemas, List.pairwise_iff_getElem]
  intro i j _ _ hij
  rw [List.getElem_mapIdx, List.getElem_mapIdx]
  exact ⟨_, _, rfl, rfl, fun heq => hij.ne (Step.index.inj heq)⟩

theorem stepsDiffer_held {s : Schema} (h : s.DistinctKeys) (keyword : Keyword) :
    (s.held keyword).Pairwise StepsDiffer := by
  cases keyword with
  | properties => exact stepsDiffer_keyedSchemas h.properties
  | patternProperties => exact stepsDiffer_keyedSchemas h.patternProperties
  | definitions => exact stepsDiffer_keyedSchemas h.definitions
  | items =>
    rw [held]
    unfold heldItems
    split
    · exact .nil
    · exact List.pairwise_singleton _ _
    · exact stepsDiffer_placedSchemas _
  | additionalProperties =>
    rw [held]
    unfold heldAdditional
    split
    · exact List.pairwise_singleton _ _
    · exact .nil
  | allOf | anyOf | oneOf => exact stepsDiffer_placedSchemas _
  | not =>
    rw [held]
    cases s.not with
    | none => exact .nil
    | some c => exact List.pairwise_singleton _ _
  | _ => exact .nil

theorem name_injective {keyword keyword' : Keyword} (h : keyword.name = keyword'.name) :
    keyword = keyword' := by
  have hread := congrArg Keyword.ofName? h
  rw [Keyword.ofName?_name, Keyword.ofName?_name] at hread
  exact Option.some.inj hread

theorem places_apart {s : Schema} (h : s.DistinctKeys) : s.places.Pairwise Apart := by
  rw [places, List.pairwise_flatMap]
  constructor
  · intro keyword _
    rw [placesUnder, List.pairwise_map]
    apply (stepsDiffer_held h keyword).imp
    rintro ⟨_, c⟩ ⟨_, c'⟩ ⟨step, step', rfl, rfl, hne⟩
    simp [Apart, hne, Ne.symm hne]
  · have hholders : holders.Nodup := by decide
    apply hholders.imp
    intro keyword keyword' hne place hplace place' hplace'
    obtain ⟨e, _, rfl⟩ := List.mem_map.1 hplace
    obtain ⟨e', _, rfl⟩ := List.mem_map.1 hplace'
    have hname : keyword.name ≠ keyword'.name := fun heq => hne (name_injective heq)
    simp [Apart, hname, Ne.symm hname]

/-- No address comes before one that it leads to. -/
theorem addresses_ordered {s : Schema} (h : ∀ n, Within n s → n.DistinctKeys) :
    s.addresses.Pairwise fun e e' => ¬ e.1 <+: e'.1 := by
  induction s using child_induction with
  | h s ih =>
    rw [addresses_eq, List.pairwise_append]
    refine ⟨List.pairwise_flatMap.2 ⟨?_, ?_⟩, List.pairwise_singleton _ _, ?_⟩
    · intro place hplace
      have hchild := child_of_place hplace
      have hbelow := ih place.2 hchild fun n hn => h n (hn.child hchild)
      rw [List.pairwise_map]
      apply hbelow.imp
      intro e e' hnot hprefix
      exact hnot ((List.prefix_append_right_inj place.1).1 hprefix)
    · apply (places_apart (h s (.refl s))).imp
      intro place place' hapart e he e' he'
      obtain ⟨below, _, rfl⟩ := List.mem_map.1 he
      obtain ⟨below', _, rfl⟩ := List.mem_map.1 he'
      exact hapart.append below.1 below'.1
    · intro e he e' he'
      obtain ⟨place, hplace, hbelow⟩ := List.mem_flatMap.1 he
      obtain ⟨below, _, rfl⟩ := List.mem_map.1 hbelow
      obtain ⟨_, _, _, _, hsteps⟩ := exists_of_mem_places hplace
      cases List.mem_singleton.1 he'
      simp [hsteps]

theorem lookup_writtenMembers (s : Schema) (keyword : Keyword) (keywords : List Keyword) :
    (s.writtenMembers keywords).lookup keyword.name =
      if keyword ∈ keywords then s.written keyword else none := by
  induction keywords with
  | nil => rfl
  | cons first rest ih =>
    rw [lookup_writtenMembers_cons, ih]
    by_cases hfirst : keyword = first
    · subst hfirst
      rw [if_pos rfl, if_pos List.mem_cons_self]
      cases hwritten : s.written keyword with
      | none => rw [Option.none_or, ite_self]
      | some v => rw [Option.some_or]
    · have hname : keyword.name ≠ first.name := fun h => hfirst (name_injective h)
      simp only [if_neg hname, List.mem_cons, or_iff_right hfirst]

theorem step?_encode (s : Schema) (keyword : Keyword) :
    s.encode.step? (.key keyword.name) = s.written keyword := by
  have hall : keyword ∈ Keyword.all := by cases keyword <;> decide
  rw [encode_eq, Json.step?, lookup_writtenMembers, if_pos hall]

/-- The keys of a table are distinct, and no list is longer than a machine word can count, as in
every schema that was read. -/
structure Regular (s : Schema) : Prop where
  keys : s.DistinctKeys
  positions : ∀ keyword ∈ holders, (s.held keyword).length ≤ Nat.pow 2 64

instance (s : Schema) : Decidable s.Regular :=
  decidable_of_iff ((DistinctTable s.properties ∧ DistinctTable s.patternProperties ∧
      DistinctTable s.definitions) ∧ ∀ keyword ∈ holders, (s.held keyword).length ≤ Nat.pow 2 64)
    ⟨fun h => ⟨⟨h.1.1, h.1.2.1, h.1.2.2⟩, h.2⟩,
      fun h => ⟨⟨h.keys.properties, h.keys.patternProperties, h.keys.definitions⟩, h.positions⟩⟩

theorem regular_of_nodes {s : Schema} (h : ∀ e ∈ s.nodes "#", e.2.Regular) (n : Schema)
    (hn : Within n s) : n.Regular := by
  obtain ⟨path, hpath⟩ := mem_nodes_iff.2 hn
  exact h _ hpath

theorem encodeEntries_eq (entries : List (String × Schema)) :
    encodeEntries entries = Entries.mapValues encode entries := by
  induction entries with
  | nil => rfl
  | cons first rest ih =>
    rw [encodeEntries, ih]
    rfl

theorem encodeList_eq (list : List Schema) : encodeList list = list.map encode := by
  induction list with
  | nil => rfl
  | cons first rest ih => rw [encodeList, ih, List.map_cons]

theorem at?_encodeTable {table : Option (Entries Schema)} {step : Option Step} {c : Schema}
    (hkeys : DistinctTable table) (h : (step, c) ∈ keyedSchemas table) :
    (encodeTable table).bind (Json.at? · step.toList) = some c.encode := by
  obtain ⟨entries, key, rfl, rfl, hmem⟩ := mem_keyedSchemas h
  have hfound : entries.lookup key = some c := Entries.lookup_of_mem hkeys hmem
  have hlookup : (encodeEntries entries).lookup key = some c.encode := by
    rw [encodeEntries_eq, Entries.lookup_mapValues, hfound]
    rfl
  rw [encodeTable, Option.bind_some]
  simp [Json.at?, Json.step?, hlookup]

theorem at?_encodeList {list : List Schema} {step : Option Step} {c : Schema}
    (hlength : (placedSchemas list).length ≤ Nat.pow 2 64) (h : (step, c) ∈ placedSchemas list) :
    (Json.array (encodeList list)).at? step.toList = some c.encode := by
  obtain ⟨i, rfl, hi⟩ := mem_placedSchemas h
  have hbound : i < Nat.pow 2 64 := by
    obtain ⟨hlt, _⟩ := List.getElem?_eq_some_iff.1 hi
    rw [placedSchemas, List.length_mapIdx] at hlength
    exact Nat.lt_of_lt_of_le hlt hlength
  simp only [Option.toList_some, Json.at?, Json.step?, if_pos hbound, encodeList_eq,
    List.getElem?_map, hi]
  rfl

/-- The value of a keyword has the schemas that the keyword holds where they are held. -/
theorem at?_written {s c : Schema} {keyword : Keyword} {step : Option Step} (h : s.Regular)
    (hkeyword : keyword ∈ holders) (hheld : (step, c) ∈ s.held keyword) :
    (s.written keyword).bind (Json.at? · step.toList) = some c.encode := by
  have hlength := h.positions keyword hkeyword
  have hlists {lists : Option (List Schema)}
      (hlength : (placedSchemas (lists.getD [])).length ≤ Nat.pow 2 64)
      (hheld : (step, c) ∈ placedSchemas (lists.getD [])) :
      (encodeLists lists).bind (Json.at? · step.toList) = some c.encode := by
    obtain ⟨list, _, rfl, _⟩ := mem_placedSchemas_getD hheld
    exact at?_encodeList hlength hheld
  cases keyword with
  | properties => exact at?_encodeTable h.keys.properties hheld
  | patternProperties => exact at?_encodeTable h.keys.patternProperties hheld
  | definitions => exact at?_encodeTable h.keys.definitions hheld
  | items =>
    rw [held] at hlength hheld
    rw [written]
    cases hs : s.items with
    | none => simp [hs, heldItems] at hheld
    | some items =>
      rw [hs] at hlength hheld
      cases items with
      | single c' =>
        cases List.mem_singleton.1 hheld
        rfl
      | tuple list => exact at?_encodeList hlength hheld
  | additionalProperties =>
    rw [held] at hheld
    rw [written]
    cases hs : s.additionalProperties with
    | none => simp [hs, heldAdditional] at hheld
    | some additional =>
      rw [hs] at hheld
      cases additional with
      | allowed verdict => cases hheld
      | schema c' =>
        cases List.mem_singleton.1 hheld
        rfl
  | allOf | anyOf | oneOf => exact hlists hlength hheld
  | not =>
    obtain ⟨c', hc', heq⟩ := List.mem_map.1 hheld
    cases heq
    rw [written, Option.mem_toList.1 hc']
    rfl
  | _ => cases hheld

theorem at?_addresses {s : Schema} (h : ∀ n, Within n s → n.Regular) {e : List Step × Schema}
    (he : e ∈ s.addresses) : s.encode.at? e.1 = some e.2.encode := by
  induction s using child_induction generalizing e with
  | h s ih =>
    rw [addresses_eq, List.mem_append] at he
    rcases he with he | he
    · obtain ⟨place, hplace, he⟩ := List.mem_flatMap.1 he
      obtain ⟨below, hbelow, rfl⟩ := List.mem_map.1 he
      obtain ⟨keyword, hkeyword, step, hheld, hsteps⟩ := exists_of_mem_places hplace
      have hchild := child_of_place hplace
      have hwritten := at?_written (h s (.refl s)) hkeyword hheld
      have hrest := ih place.2 hchild (fun n hn => h n (hn.child hchild)) hbelow
      rw [hsteps, Json.at?_append, Json.at?, step?_encode, hwritten, Option.bind_some, hrest]
    · cases List.mem_singleton.1 he
      rfl

/-- The path at which a walk from the root visits the node at an address. -/
def visitPath (address : List Step) : String := Json.extend "#" (address.map Step.text)

theorem fragmentPath_visitPath {s : Schema} {e : List Step × Schema} (he : e ∈ s.addresses) :
    Json.fragmentPath (visitPath e.1) = e.1.flatMap Step.read := by
  apply Json.fragmentPath_unescaped
  intro first hfirst
  rw [addresses_eq, List.mem_append] at he
  rcases he with he | he
  · obtain ⟨place, hplace, he⟩ := List.mem_flatMap.1 he
    obtain ⟨below, _, rfl⟩ := List.mem_map.1 he
    obtain ⟨keyword, _, step, _, hsteps⟩ := exists_of_mem_places hplace
    rw [hsteps] at hfirst
    cases hfirst
    rw [Step.text]
    cases keyword <;> decide
  · cases List.mem_singleton.1 he
    cases hfirst

def Table.keyword : Table → Keyword
  | .properties => .properties
  | .patternProperties => .patternProperties
  | .definitions => .definitions

def Table.single (place : Table) (name : String) (c : Schema) : Schema :=
  match place with
  | .properties => { properties := some [(name, c)] }
  | .patternProperties => { patternProperties := some [(name, c)] }
  | .definitions => { definitions := some [(name, c)] }

theorem navigate_single_iff (place : Table) (name : String) (c : Schema) :
    (place.single name c).encode.navigate (visitPath [.key place.keyword.name, .key name]) =
      .ok c.encode ↔ Json.Plain name := by
  have hstep : (place.single name c).encode.step? (.key place.keyword.name) =
      some (.object [(name, c.encode)]) := by
    rw [step?_encode]
    cases place <;> rfl
  have hchild := Json.child?_of_step? hstep
  rw [Step.text] at hchild
  have hkeyword : Json.Plain place.keyword.name := by
    cases place <;> decide +kernel
  have hread : (Step.key place.keyword.name).read = [place.keyword.name] :=
    Step.read_of_plain hkeyword
  have hpath : Json.fragmentPath (visitPath [.key place.keyword.name, .key name]) =
      place.keyword.name :: (Step.key name).read := by
    rw [visitPath, Json.fragmentPath_unescaped, List.flatMap_cons, hread, List.flatMap_singleton,
      List.singleton_append]
    intro step hstep
    cases hstep
    rw [Step.text]
    cases place <;> decide
  rw [Json.navigate_eq_ok_iff, hpath, Json.descend?, hchild, Option.bind_some,
    Json.descend?_read_iff]

/-- A walk whose visits leave the nodes as they are visits each subschema once, in its place, and
what is below a node before the node. The value that the written form has at an address is that of
the node there. Navigating by the path of the visit leads there if the names on the way are plain;
in general it goes by the parts that the names are read as. -/
theorem walk_addresses {s : Schema} (h : ∀ n, Within n s → n.Regular) :
    (∀ {m : Type → Type} [Monad m] [LawfulMonad m] (act : String → Schema → m Unit),
      walk (keeping act) "#" s = do
        s.addresses.forM fun e => act (visitPath e.1) e.2
        return s) ∧
    (∀ n, n ∈ s.addresses.map Prod.snd ↔ Within n s) ∧
    (s.addresses.map Prod.fst).Nodup ∧
    (s.addresses.Pairwise fun e e' => ¬ e.1 <+: e'.1) ∧
    (∀ e ∈ s.addresses, s.encode.at? e.1 = some e.2.encode ∧
      (s.encode.navigate (visitPath e.1) = .ok e.2.encode ↔
        s.encode.descend? (e.1.flatMap Step.read) = some e.2.encode) ∧
      ((∀ name, .key name ∈ e.1 → Json.Plain name) →
        s.encode.navigate (visitPath e.1) = .ok e.2.encode)) ∧
    ∀ (place : Table) (name : String) (c : Schema),
      (place.single name c).encode.navigate (visitPath [.key place.keyword.name, .key name]) =
        .ok c.encode ↔ Json.Plain name := by
  have hordered := addresses_ordered fun n hn => (h n hn).keys
  refine ⟨?_, ?_, ?_, hordered, ?_, navigate_single_iff⟩
  · intro m _ _ act
    simp only [walk_eq_forM, nodes_addresses, List.forM_eq_forM, List.forM_map]
    rfl
  · intro n
    have hnodes : (∃ p, (p, n) ∈ s.nodes "#") ↔ Within n s := mem_nodes_iff
    rw [← hnodes, nodes_addresses]
    constructor
    · intro hmem
      obtain ⟨e, he, rfl⟩ := List.mem_map.1 hmem
      exact ⟨_, List.mem_map_of_mem he⟩
    · rintro ⟨p, hmem⟩
      obtain ⟨e, he, heq⟩ := List.mem_map.1 hmem
      cases heq
      exact List.mem_map_of_mem he
  · rw [List.Nodup, List.pairwise_map]
    apply hordered.imp
    intro e e' hnot heq
    exact hnot (heq ▸ List.prefix_refl _)
  · intro e he
    have hat := at?_addresses h he
    have hiff : s.encode.navigate (visitPath e.1) = .ok e.2.encode ↔
        s.encode.descend? (e.1.flatMap Step.read) = some e.2.encode := by
      rw [Json.navigate_eq_ok_iff, fragmentPath_visitPath he]
    refine ⟨hat, hiff, ?_⟩
    intro hplain
    rw [hiff, Json.flatMap_read hplain]
    exact Json.descend?_of_at? hat

def pairUnder (name : String) : Schema :=
  Table.properties.single name { items := some (.tuple [ofType "number", ofType "string"]) }

theorem mem_addresses_pairUnder (name : String) :
    ([.key "properties", .key name, .key "items", .index 1], ofType "string") ∈
      (pairUnder name).addresses := by
  have hproperty : ([.key "properties", .key name],
      { items := some (.tuple [ofType "number", ofType "string"]) }) ∈ (pairUnder name).places :=
    List.mem_cons_self
  have hitem : ([.key "items", .index 1], ofType "string") ∈
      places { items := some (.tuple [ofType "number", ofType "string"]) } :=
    List.mem_cons_of_mem _ List.mem_cons_self
  exact mem_addresses hproperty (mem_addresses hitem (mem_addresses_self _))

theorem walk_addresses_pairUnder : (∀ n, Within n (pairUnder "entry") → n.Regular) ∧
    (pairUnder "entry").encode.navigate "#/properties/entry/items/1" =
      .ok (ofType "string").encode := by
  have hregular : ∀ n, Within n (pairUnder "entry") → n.Regular :=
    regular_of_nodes (by decide +kernel)
  obtain ⟨_, _, _, _, hvalues, _⟩ := walk_addresses hregular
  have hnames : ∀ name ∈ ["properties", "entry", "items"], Json.Plain name := by decide +kernel
  have hfound := (hvalues _ (mem_addresses_pairUnder "entry")).2.2
    fun name hname => hnames name (by simpa using hname)
  have hpath : visitPath [.key "properties", .key "entry", .key "items", .index 1] =
      "#/properties/entry/items/1" := by decide +kernel
  rw [hpath] at hfound
  exact ⟨hregular, hfound⟩

/-- A slash in the name of a property is read as one between two steps. -/
theorem exists_visit_astray : ¬ ∀ s : Schema, (∀ n, Within n s → n.Regular) →
    ∀ e ∈ s.nodes "#", s.encode.navigate e.1 = .ok e.2.encode := by
  intro hclaim
  have hmem : ("#/properties/a/b/items/1", ofType "string") ∈ (pairUnder "a/b").nodes "#" := by
    rw [nodes_addresses]
    exact List.mem_map_of_mem (mem_addresses_pairUnder "a/b")
  have hfound := hclaim _ (regular_of_nodes (by decide +kernel)) _ hmem
  cases hfound

end SchemaCatalog.Schema
