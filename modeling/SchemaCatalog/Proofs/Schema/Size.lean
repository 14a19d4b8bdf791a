import SchemaCatalog.Proofs.Schema.Visits
import Mathlib.Algebra.GroupWithZero.Nat
import Mathlib.Algebra.Order.BigOperators.Group.List
import Mathlib.Algebra.Order.Group.Nat

namespace SchemaCatalog.Schema

variable {s c : Schema}

def itemSchemas (s : Schema) : List Schema :=
  match s.items with
  | none => []
  | some (.single c) => [c]
  | some (.tuple list) => list

def undeclared (s : Schema) : List Schema :=
  match s.additionalProperties with
  | some (.schema value) => [value]
  | _ => []

def subschemas (s : Schema) : List Schema :=
  (s.properties.getD []).map Prod.snd ++ ((s.patternProperties.getD []).map Prod.snd ++
    ((s.definitions.getD []).map Prod.snd ++ (s.itemSchemas ++ (s.undeclared ++
      (s.allOf.getD [] ++ (s.anyOf.getD [] ++ (s.oneOf.getD [] ++ s.not.toList)))))))

theorem map_snd_table (keyword : String) (entries : Option (Entries Schema)) :
    (children.table keyword entries).map Prod.snd = (entries.getD []).map Prod.snd := by
  rw [children.table, List.map_map]
  rfl

theorem map_snd_positions (keyword : String) (list : List Schema) :
    (children.positions keyword list).map Prod.snd = list := by
  apply List.ext_getElem
  · simp [children.positions]
  · intro i _ _
    simp [children.positions]

theorem map_snd_children (s : Schema) : s.children.map Prod.snd = s.subschemas := by
  have hitems : (itemChildren s.items).map Prod.snd = s.itemSchemas := by
    unfold itemSchemas
    cases s.items with
    | none => rfl
    | some items =>
      cases items with
      | single c => rfl
      | tuple list => exact map_snd_positions "items" list
  have hundeclared : (additionalChildren s.additionalProperties).map Prod.snd = s.undeclared := by
    unfold undeclared
    cases s.additionalProperties with
    | none => rfl
    | some additional => cases additional <;> rfl
  have hnot : (s.not.toList.map fun c => ("not", c)).map Prod.snd = s.not.toList := by
    rw [List.map_map]
    exact List.map_id _
  rw [children_eq]
  simp only [List.map_append, map_snd_table, map_snd_positions, hitems, hundeclared, hnot,
    List.append_assoc, subschemas]

theorem mem_subschemas_iff : c ∈ s.subschemas ↔ Child c s := by
  have hvalue {entries : Option (Entries Schema)} (h : c ∈ (entries.getD []).map Prod.snd) :
      ∃ table key, entries = some table ∧ (key, c) ∈ table := by
    obtain ⟨⟨key, c⟩, hmem, rfl⟩ := List.mem_map.1 h
    cases entries with
    | none => cases hmem
    | some table => exact ⟨table, key, rfl, hmem⟩
  have hmember {lists : Option (List Schema)} (h : c ∈ lists.getD []) :
      ∃ list, lists = some list ∧ c ∈ list := by
    cases lists with
    | none => cases h
    | some list => exact ⟨list, rfl, h⟩
  constructor
  · intro h
    simp only [subschemas, List.mem_append] at h
    rcases h with h | h | h | h | h | h | h | h | h
    · obtain ⟨table, key, hs, hc⟩ := hvalue h
      exact .property hs hc
    · obtain ⟨table, key, hs, hc⟩ := hvalue h
      exact .pattern hs hc
    · obtain ⟨table, key, hs, hc⟩ := hvalue h
      exact .definition hs hc
    · unfold itemSchemas at h
      split at h
      · cases h
      · exact .item (List.mem_singleton.1 h ▸ ‹_›)
      · exact .position ‹_› h
    · unfold undeclared at h
      split at h
      · exact .additional (List.mem_singleton.1 h ▸ ‹_›)
      · cases h
    · obtain ⟨list, hs, hc⟩ := hmember h
      exact .allOf hs hc
    · obtain ⟨list, hs, hc⟩ := hmember h
      exact .anyOf hs hc
    · obtain ⟨list, hs, hc⟩ := hmember h
      exact .oneOf hs hc
    · exact .not (Option.mem_toList.1 h)
  · intro h
    simp only [subschemas, List.mem_append]
    cases h with
    | property hs hc => exact .inl (hs ▸ List.mem_map_of_mem hc)
    | pattern hs hc => exact .inr (.inl (hs ▸ List.mem_map_of_mem hc))
    | definition hs hc => exact .inr (.inr (.inl (hs ▸ List.mem_map_of_mem hc)))
    | item hs => simp [itemSchemas, hs]
    | position hs hc => simp [itemSchemas, hs, hc]
    | additional hs => simp [undeclared, hs]
    | allOf hs hc => simp [hs, hc]
    | anyOf hs hc => simp [hs, hc]
    | oneOf hs hc => simp [hs, hc]
    | not hs => simp [hs]

theorem child_of_mem_children {e : String × Schema} (h : e ∈ s.children) : Child e.2 s := by
  rw [← mem_subschemas_iff, ← map_snd_children]
  exact List.mem_map_of_mem h

/-- A schema has one node more than the schemas below it, wherever it stands. -/
theorem length_nodes (path : String) (s : Schema) :
    (s.nodes path).length = (s.subschemas.map size).sum + 1 := by
  induction s using child_induction generalizing path with
  | h s ih =>
    have hsize (e : String × Schema) (he : e ∈ s.children) (path : String) :
        (e.2.nodes path).length = e.2.size :=
      (ih e.2 (child_of_mem_children he) path).trans (ih e.2 (child_of_mem_children he) "").symm
    rw [nodes_children, List.length_append, nodesOf, List.length_flatMap, ← map_snd_children,
      List.map_map, List.map_congr_left fun e he => hsize e he _]
    rfl

theorem size_eq (s : Schema) : s.size = (s.subschemas.map size).sum + 1 :=
  length_nodes "" s

theorem size_child (h : Child c s) : c.size < s.size := by
  have hle : c.size ≤ (s.subschemas.map size).sum :=
    List.le_sum_of_mem (List.mem_map_of_mem (mem_subschemas_iff.2 h))
  rw [size_eq s]
  exact Nat.lt_succ_of_le hle

end SchemaCatalog.Schema
