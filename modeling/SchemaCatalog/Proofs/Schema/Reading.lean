import SchemaCatalog.Proofs.Schema.Equality
import SchemaCatalog.Proofs.Schema.RoundTrip

namespace SchemaCatalog

theorem mem_of_mapM {ε α β : Type} {f : α → Except ε β} {xs : List α} {ys : List β} {y : β}
    (h : xs.mapM f = .ok ys) (hy : y ∈ ys) : ∃ x ∈ xs, f x = .ok y := by
  induction xs generalizing ys with
  | nil =>
    cases h
    cases hy
  | cons x rest ih =>
    rw [List.mapM_cons] at h
    obtain ⟨first, hfirst, h⟩ := bind_eq_ok h
    obtain ⟨others, hothers, h⟩ := bind_eq_ok h
    cases h
    cases hy with
    | head => exact ⟨x, List.mem_cons_self, hfirst⟩
    | tail _ hy =>
      obtain ⟨x', hx', hf⟩ := ih hothers hy
      exact ⟨x', List.mem_cons_of_mem _ hx', hf⟩

/-- The schema was read from the value, as a node or in a table or list. -/
inductive Reading.Holds (r : Reading) : Schema → Prop
  | schema {c : Schema} : r.schema = .ok c → Holds r c
  | entry {table : Entries Schema} {key : String} {c : Schema} :
    r.table = .ok table → (key, c) ∈ table → Holds r c
  | member {list : List Schema} {c : Schema} : r.list = .ok list → c ∈ list → Holds r c

namespace Schema

variable {s t c : Schema} {keyword : Keyword} {r : Reading}

/-- Reading a keyword adds below the node only what was read from the value. -/
theorem child_setKeyword (h : Reading.setKeyword s keyword r = .ok t) (hc : Child c t) :
    Child c s ∨ r.Holds c := by
  unfold Reading.setKeyword at h
  dsimp only at h
  split at h
  · cases h
    exact .inl hc
  · cases keyword with
    | properties | patternProperties | definitions | allOf | anyOf | oneOf | not =>
      obtain ⟨x, hx, h⟩ := bind_eq_ok h
      cases h
      cases hc <;> grind [Child, Reading.Holds]
    | items =>
      obtain ⟨items, hitems, h⟩ := bind_eq_ok h
      cases h
      unfold Reading.items at hitems
      cases hc <;> grind [Child, Reading.Holds]
    | additionalProperties =>
      obtain ⟨additional, hadditional, h⟩ := bind_eq_ok h
      cases h
      unfold Reading.additional at hadditional
      cases hc <;> grind [Child, Reading.Holds]
    | defaultValue | exclusiveMinimum | exclusiveMaximum =>
      cases h
      exact .inl (child_keywords_iff.1 hc)
    | _ =>
      obtain ⟨x, hx, h⟩ := bind_eq_ok h
      cases h
      exact .inl (child_keywords_iff.1 hc)

theorem nullFree_setKeyword (hs : s.keywords.NullFree)
    (h : Reading.setKeyword s keyword r = .ok t) : t.keywords.NullFree := by
  obtain ⟨hdefault, hminimum, hmaximum⟩ := hs
  unfold Reading.setKeyword at h
  dsimp only at h
  split at h
  · cases h
    exact ⟨hdefault, hminimum, hmaximum⟩
  · rename_i hnull
    have hvalue : some r.value ≠ some .null := fun he => hnull (Option.some.inj he)
    cases keyword with
    | defaultValue =>
      cases h
      exact ⟨hvalue, hminimum, hmaximum⟩
    | exclusiveMinimum =>
      cases h
      exact ⟨hdefault, hvalue, hmaximum⟩
    | exclusiveMaximum =>
      cases h
      exact ⟨hdefault, hminimum, hvalue⟩
    | _ =>
      obtain ⟨x, hx, h⟩ := bind_eq_ok h
      cases h
      exact ⟨hdefault, hminimum, hmaximum⟩

theorem throughout_setKeyword (hs : Throughout Keywords.NullFree s)
    (hr : ∀ c, r.Holds c → Throughout Keywords.NullFree c)
    (h : Reading.setKeyword s keyword r = .ok t) : Throughout Keywords.NullFree t := by
  obtain ⟨hnull, hbelow⟩ := throughout_iff.1 hs
  refine throughout_iff.2 ⟨nullFree_setKeyword hnull h, fun c hc => ?_⟩
  exact (child_setKeyword h hc).elim (hbelow c) (hr c)

theorem throughout_ofMembers {seen : List Keyword} {members : List (String × Reading)}
    (hs : Throughout Keywords.NullFree s)
    (hmembers : ∀ m ∈ members, ∀ c, m.2.Holds c → Throughout Keywords.NullFree c)
    (h : Reading.ofMembers s seen members = .ok t) : Throughout Keywords.NullFree t := by
  induction members generalizing s seen with
  | nil =>
    cases h
    exact hs
  | cons first rest ih =>
    obtain ⟨name, r⟩ := first
    have hrest := fun m hm => hmembers m (List.mem_cons_of_mem (name, r) hm)
    rw [Reading.ofMembers] at h
    split at h
    · exact ih hs hrest h
    · split at h
      · cases h
      · obtain ⟨u, hu, h⟩ := bind_eq_ok h
        exact ih (throughout_setKeyword hs (hmembers _ List.mem_cons_self) hu) hrest h

theorem throughout_ofSequence {keywords : List Keyword} {items : List Reading}
    (hs : Throughout Keywords.NullFree s)
    (hitems : ∀ r ∈ items, ∀ c, r.Holds c → Throughout Keywords.NullFree c)
    (h : Reading.ofSequence s keywords items = .ok t) : Throughout Keywords.NullFree t := by
  induction keywords generalizing s items with
  | nil =>
    cases h
    exact hs
  | cons keyword keywords ih =>
    cases items with
    | nil => cases h
    | cons r rest =>
      obtain ⟨u, hu, h⟩ := bind_eq_ok h
      exact ih (throughout_setKeyword hs (hitems r List.mem_cons_self) hu)
        (fun r' hr' => hitems r' (List.mem_cons_of_mem _ hr')) h

theorem holds_ofScalar {v : Json} : ¬ (Reading.ofScalar v).Holds c := by
  intro h
  cases h <;> contradiction

theorem throughout_ofItems {v : Json} {items : List Reading}
    (hitems : ∀ r ∈ items, ∀ c, r.Holds c → Throughout Keywords.NullFree c)
    (h : (Reading.ofItems v items).Holds c) : Throughout Keywords.NullFree c := by
  cases h with
  | schema h =>
    obtain ⟨u, hu, h⟩ := bind_eq_ok h
    split at h
    · cases h
    · cases h
      exact throughout_ofSequence (kept_throughout mergeable_nullFree).empty hitems hu
  | entry h _ => cases h
  | member h hc =>
    obtain ⟨r, hr, hschema⟩ := mem_of_mapM h hc
    exact hitems r hr c (.schema hschema)

theorem throughout_ofObject {v : Json} {members : List (String × Reading)}
    (hmembers : ∀ m ∈ members, ∀ c, m.2.Holds c → Throughout Keywords.NullFree c)
    (h : (Reading.ofObject v members).Holds c) : Throughout Keywords.NullFree c := by
  cases h with
  | schema h =>
    exact throughout_ofMembers (kept_throughout mergeable_nullFree).empty hmembers h
  | entry h hc =>
    obtain ⟨m, hm, hentry⟩ := mem_of_mapM h hc
    obtain ⟨schema, hschema, hentry⟩ := bind_eq_ok hentry
    cases hentry
    exact hmembers m hm c (.schema hschema)
  | member h _ => cases h

mutual

theorem throughout_ofJson : (v : Json) → ∀ c, (Reading.ofJson v).Holds c →
    Throughout Keywords.NullFree c
  | .array values => by
    intro c h
    rw [Reading.ofJson] at h
    exact throughout_ofItems (throughout_readItems values) h
  | .object members => by
    intro c h
    rw [Reading.ofJson] at h
    exact throughout_ofObject (throughout_readMembers members) h
  | .null => fun _ h => absurd h holds_ofScalar
  | .bool _ => fun _ h => absurd h holds_ofScalar
  | .number _ => fun _ h => absurd h holds_ofScalar
  | .string _ => fun _ h => absurd h holds_ofScalar

theorem throughout_readItems : (values : List Json) → ∀ r ∈ Reading.readItems values,
    ∀ c, r.Holds c → Throughout Keywords.NullFree c
  | [] => nofun
  | v :: rest => by
    intro r hr
    rw [Reading.readItems] at hr
    cases hr with
    | head => exact throughout_ofJson v
    | tail _ hr => exact throughout_readItems rest r hr

theorem throughout_readMembers : (members : List (String × Json)) →
    ∀ m ∈ Reading.readMembers members, ∀ c, m.2.Holds c → Throughout Keywords.NullFree c
  | [] => nofun
  | (name, v) :: rest => by
    intro m hm
    rw [Reading.readMembers] at hm
    cases hm with
    | head => exact throughout_ofJson v
    | tail _ hm => exact throughout_readMembers rest m hm

end

/-- No keyword of a schema that was read holds null. -/
theorem nullFree_of_decode {v : Json} (h : decode v = .ok s) : Throughout Keywords.NullFree s := by
  unfold decode at h
  split at h
  · exact throughout_ofJson _ s (.schema h)
  · cases h

/-- What was read is written so that reading it again succeeds and gives an equal schema, and indeed
the same one: each union is read as the form it was written from, and the keys of every table, at
whatever depth, keep their order. -/
theorem decode_encode_of_decode {v : Json} (h : decode v = .ok s) :
    ∃ t, decode s.encode = .ok t ∧ (t == s) = true ∧ t = s := by
  have hnull : Throughout Keywords.NullFree s := nullFree_of_decode h
  exact ⟨s, decode_encode hnull, beq_self_eq_true s, rfl⟩

/-- A schema with second names, a null, each form of the three unions, and a node given as a
sequence. -/
def manyForms : Json :=
  .object [("$id", .string "forms.json"), ("unknown", .bool true), ("default", .null),
    ("$defs", .object [
      ("z", .object [("type", .strings ["string", "null"]), ("items", .object [])]),
      ("a", .object [("type", .string "array"), ("items", .array [.object [], .object []])]),
      ("m", .array (.string "sequence" :: List.replicate 30 .null))]),
    ("properties", .object [
      ("closed", .object [("additionalProperties", .bool false)]),
      ("open", .object [("additionalProperties", .object [("enum", .array [.null, .int 1])])])])]

theorem decode_encode_of_decode_manyForms : ∃ s, decode manyForms = .ok s ∧
    s.definitions.map Entries.keys = some ["z", "a", "m"] ∧
    ∃ t, decode s.encode = .ok t ∧ (t == s) = true ∧ t = s := by
  have hkeys : (decode manyForms).toOption.bind (·.definitions.map Entries.keys) =
      some ["z", "a", "m"] := by
    decide +kernel
  obtain ⟨s, hs, hkeys⟩ := Option.bind_eq_some_iff.1 hkeys
  have hread : decode manyForms = .ok s := eq_ok_of_toOption hs
  exact ⟨s, hread, hkeys, decode_encode_of_decode hread⟩

end Schema

end SchemaCatalog
