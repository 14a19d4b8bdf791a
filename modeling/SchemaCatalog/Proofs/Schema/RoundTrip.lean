import SchemaCatalog.Proofs.Steps
import SchemaCatalog.Proofs.Schema.Kept
import SchemaCatalog.Schema.Decoding
import SchemaCatalog.Schema.Encoding

namespace SchemaCatalog

/-- None of the keywords that take any value holds null, which would be read as an absent one. -/
structure Keywords.NullFree (kw : Keywords) : Prop where
  defaultValue : kw.defaultValue ≠ some .null
  exclusiveMinimum : kw.exclusiveMinimum ≠ some .null
  exclusiveMaximum : kw.exclusiveMaximum ≠ some .null

theorem Keyword.ofName?_name (keyword : Keyword) : ofName? keyword.name = some keyword := by
  cases keyword <;> decide

namespace Schema

/-- The value under which a keyword is written, if it is declared. -/
def written (s : Schema) : Keyword → Option Json
  | .id => s.keywords.id.map .string
  | .reference => s.keywords.reference.map .string
  | .title => s.keywords.title.map .string
  | .description => s.keywords.description.map .string
  | .format => s.keywords.format.map .string
  | .pattern => s.keywords.pattern.map .string
  | .type => s.keywords.type.map TypeKeyword.encode
  | .properties => encodeTable s.properties
  | .patternProperties => encodeTable s.patternProperties
  | .definitions => encodeTable s.definitions
  | .items => encodeItems s.items
  | .additionalProperties => encodeAdditional s.additionalProperties
  | .allOf => encodeLists s.allOf
  | .anyOf => encodeLists s.anyOf
  | .oneOf => encodeLists s.oneOf
  | .not => encodeNode s.not
  | .required => s.keywords.required.map .strings
  | .enumeration => s.keywords.enumeration.map .array
  | .defaultValue => s.keywords.defaultValue
  | .minimum => s.keywords.minimum.map .number
  | .maximum => s.keywords.maximum.map .number
  | .exclusiveMinimum => s.keywords.exclusiveMinimum
  | .exclusiveMaximum => s.keywords.exclusiveMaximum
  | .multipleOf => s.keywords.multipleOf.map .number
  | .minLength => s.keywords.minLength.map .nat
  | .maxLength => s.keywords.maxLength.map .nat
  | .minItems => s.keywords.minItems.map .nat
  | .maxItems => s.keywords.maxItems.map .nat
  | .uniqueItems => s.keywords.uniqueItems.map .bool
  | .minProperties => s.keywords.minProperties.map .nat
  | .maxProperties => s.keywords.maxProperties.map .nat

def writtenMembers (s : Schema) (keywords : List Keyword) : List (String × Json) :=
  keywords.flatMap fun keyword => member keyword (s.written keyword)

theorem lookup_writtenMembers_cons (s : Schema) (keyword : Keyword) (rest : List Keyword)
    (key : String) : (s.writtenMembers (keyword :: rest)).lookup key =
      if key = keyword.name then (s.written keyword).or ((s.writtenMembers rest).lookup key)
      else (s.writtenMembers rest).lookup key := by
  have hmembers : s.writtenMembers (keyword :: rest) =
      member keyword (s.written keyword) ++ s.writtenMembers rest := List.flatMap_cons
  rw [hmembers]
  cases s.written keyword with
  | none => rw [member, List.nil_append, Option.none_or, ite_self]
  | some v => rw [member, List.singleton_append, Entries.lookup_cons, Option.some_or]

theorem encode_eq (s : Schema) : s.encode = .object (s.writtenMembers Keyword.all) := by
  cases s
  unfold encode
  simp [writtenMembers, Keyword.all, written]

/-- The schema with only those keywords that pass the test. -/
def only (s : Schema) (p : Keyword → Bool) : Schema where
  keywords :=
    { id := if p .id then s.keywords.id else none
      reference := if p .reference then s.keywords.reference else none
      title := if p .title then s.keywords.title else none
      description := if p .description then s.keywords.description else none
      format := if p .format then s.keywords.format else none
      pattern := if p .pattern then s.keywords.pattern else none
      type := if p .type then s.keywords.type else none
      required := if p .required then s.keywords.required else none
      enumeration := if p .enumeration then s.keywords.enumeration else none
      defaultValue := if p .defaultValue then s.keywords.defaultValue else none
      minimum := if p .minimum then s.keywords.minimum else none
      maximum := if p .maximum then s.keywords.maximum else none
      exclusiveMinimum := if p .exclusiveMinimum then s.keywords.exclusiveMinimum else none
      exclusiveMaximum := if p .exclusiveMaximum then s.keywords.exclusiveMaximum else none
      multipleOf := if p .multipleOf then s.keywords.multipleOf else none
      minLength := if p .minLength then s.keywords.minLength else none
      maxLength := if p .maxLength then s.keywords.maxLength else none
      minItems := if p .minItems then s.keywords.minItems else none
      maxItems := if p .maxItems then s.keywords.maxItems else none
      uniqueItems := if p .uniqueItems then s.keywords.uniqueItems else none
      minProperties := if p .minProperties then s.keywords.minProperties else none
      maxProperties := if p .maxProperties then s.keywords.maxProperties else none }
  properties := if p .properties then s.properties else none
  patternProperties := if p .patternProperties then s.patternProperties else none
  definitions := if p .definitions then s.definitions else none
  items := if p .items then s.items else none
  additionalProperties := if p .additionalProperties then s.additionalProperties else none
  allOf := if p .allOf then s.allOf else none
  anyOf := if p .anyOf then s.anyOf else none
  oneOf := if p .oneOf then s.oneOf else none
  not := if p .not then s.not else none

def including (keyword : Keyword) (p : Keyword → Bool) : Keyword → Bool :=
  fun k => k == keyword || p k

variable {s c : Schema} {p : Keyword → Bool} {keyword : Keyword} {v : Json}

def ReadsBack (s : Schema) : Prop := (Reading.ofJson s.encode).schema = .ok s

theorem readItems_encodeList {list : List Schema} (h : ∀ c ∈ list, ReadsBack c) :
    (Reading.readItems (encodeList list)).mapM Reading.schema = .ok list := by
  induction list with
  | nil => rfl
  | cons c rest ih =>
    have hc : (Reading.ofJson c.encode).schema = .ok c := h c List.mem_cons_self
    have hrest := ih fun c hc => h c (List.mem_cons_of_mem _ hc)
    simp only [encodeList, Reading.readItems, List.mapM_cons, hc, hrest]
    rfl

theorem readMembers_encodeEntries {entries : List (String × Schema)}
    (h : ∀ key c, (key, c) ∈ entries → ReadsBack c) :
    (Reading.readMembers (encodeEntries entries)).mapM
      (fun e => do return (e.1, ← e.2.schema) : String × Reading → Except SchemaFault _) =
        .ok entries := by
  induction entries with
  | nil => rfl
  | cons first rest ih =>
    obtain ⟨key, c⟩ := first
    have hc : (Reading.ofJson c.encode).schema = .ok c := h key c List.mem_cons_self
    have hrest := ih fun key c hc => h key c (List.mem_cons_of_mem _ hc)
    simp only [encodeEntries, Reading.readMembers, List.mapM_cons, hc, hrest]
    rfl

theorem list_ofJson {list : List Schema} (h : ∀ c ∈ list, ReadsBack c) :
    (Reading.ofJson (.array (encodeList list))).list = .ok list := by
  rw [Reading.ofJson]
  exact readItems_encodeList h

theorem table_ofJson {entries : List (String × Schema)}
    (h : ∀ key c, (key, c) ∈ entries → ReadsBack c) :
    (Reading.ofJson (.object (encodeEntries entries))).table = .ok entries := by
  rw [Reading.ofJson]
  exact readMembers_encodeEntries h

theorem items_ofJson (h : ReadsBack c) : (Reading.ofJson c.encode).items = .ok (.single c) := by
  have hlist : ∃ e, (Reading.ofJson c.encode).list = .error e := by
    rw [encode_eq, Reading.ofJson]
    exact ⟨_, rfl⟩
  obtain ⟨e, hlist⟩ := hlist
  unfold ReadsBack at h
  simp only [Reading.items, hlist, h]

theorem value_ofJson (v : Json) : (Reading.ofJson v).value = v := by
  cases v <;> rw [Reading.ofJson] <;> rfl

theorem additional_ofJson (h : ReadsBack c) :
    (Reading.ofJson c.encode).additional = .ok (.schema c) := by
  unfold ReadsBack at h
  rw [Reading.additional, value_ofJson, h, encode_eq]

theorem sequence_text (names : List String) :
    Reading.sequence Reading.text (.strings names) = .ok names := by
  have htext : (names.map Json.string).mapM Reading.text = .ok names := by
    induction names with
    | nil => rfl
    | cons name rest ih =>
      simp only [List.map_cons, List.mapM_cons, ih]
      rfl
  exact htext

theorem sequence_ok (values : List Json) :
    Reading.sequence Except.ok (.array values) = .ok values := by
  have hok : values.mapM (Except.ok : Json → Except SchemaFault Json) = .ok values := by
    induction values with
    | nil => rfl
    | cons v rest ih =>
      simp only [List.mapM_cons, ih]
      rfl
  exact hok

theorem typeKeyword_encode (type : TypeKeyword) :
    Reading.typeKeyword type.encode = .ok type := by
  cases type with
  | single name => rfl
  | several names =>
    have htext : (names.map Json.string).mapM Reading.text = .ok names := sequence_text names
    simp only [TypeKeyword.encode, Json.strings, Reading.typeKeyword, htext]

theorem encodeTable_eq_some {table : Option (List (String × Schema))} {v : Json}
    (h : encodeTable table = some v) :
    ∃ entries, table = some entries ∧ v = .object (encodeEntries entries) := by
  cases table with
  | none => cases h
  | some entries => exact ⟨entries, rfl, (Option.some.inj h).symm⟩

theorem encodeLists_eq_some {lists : Option (List Schema)} {v : Json}
    (h : encodeLists lists = some v) :
    ∃ list, lists = some list ∧ v = .array (encodeList list) := by
  cases lists with
  | none => cases h
  | some list => exact ⟨list, rfl, (Option.some.inj h).symm⟩

theorem encodeNode_eq_some {node : Option Schema} {v : Json} (h : encodeNode node = some v) :
    ∃ c, node = some c ∧ v = c.encode := by
  cases node with
  | none => cases h
  | some c => exact ⟨c, rfl, (Option.some.inj h).symm⟩

theorem count_nat (n : Nat) : Reading.count (.nat n) = .ok n := by
  have hnat : ¬ (n : Int) < 0 := Int.not_lt.2 (Int.natCast_nonneg n)
  simp only [Json.nat, Json.int, Reading.count, if_neg hnat, Int.toNat_natCast]

/-- A keyword that is read takes its place next to those read before. -/
theorem setKeyword_only (hnull : s.keywords.NullFree) (hchildren : ∀ c, Child c s → ReadsBack c)
    (hv : s.written keyword = some v) :
    Reading.setKeyword (s.only p) keyword (Reading.ofJson v) =
      .ok (s.only (including keyword p)) := by
  -- keywords of one sort are read by the same function, so each sort is one case
  cases keyword with
  | id | reference | title | description | format | pattern | minimum | maximum | multipleOf
    | uniqueItems =>
    obtain ⟨x, hx, hv⟩ := Option.map_eq_some_iff.1 hv
    subst hv
    simp only [only, hx]
    rfl
  | minLength | maxLength | minItems | maxItems | minProperties | maxProperties =>
    obtain ⟨n, hn, hv⟩ := Option.map_eq_some_iff.1 hv
    subst hv
    simp only [only, hn]
    simp only [Reading.setKeyword, value_ofJson, count_nat]
    rfl
  | type =>
    obtain ⟨type, htype, hv⟩ := Option.map_eq_some_iff.1 hv
    subst hv
    simp only [only, htype]
    simp only [Reading.setKeyword, value_ofJson, typeKeyword_encode]
    cases type <;> rfl
  | required =>
    obtain ⟨names, hnames, hv⟩ := Option.map_eq_some_iff.1 hv
    subst hv
    simp only [only, hnames]
    simp only [Reading.setKeyword, value_ofJson, sequence_text]
    rfl
  | enumeration =>
    obtain ⟨values, hvalues, hv⟩ := Option.map_eq_some_iff.1 hv
    subst hv
    simp only [only, hvalues]
    simp only [Reading.setKeyword, value_ofJson, sequence_ok]
    rfl
  | defaultValue | exclusiveMinimum | exclusiveMaximum =>
    obtain ⟨hdefault, hminimum, hmaximum⟩ := hnull
    simp only [written] at hv
    simp only [only, hv]
    simp only [Reading.setKeyword, value_ofJson]
    cases v with
    | null => contradiction
    | _ => rfl
  | properties =>
    obtain ⟨entries, hentries, hv⟩ := encodeTable_eq_some hv
    subst hv
    simp only [only, hentries]
    simp only [Reading.setKeyword, value_ofJson,
      table_ofJson fun _ c hc => hchildren c (.property hentries hc)]
    rfl
  | patternProperties =>
    obtain ⟨entries, hentries, hv⟩ := encodeTable_eq_some hv
    subst hv
    simp only [only, hentries]
    simp only [Reading.setKeyword, value_ofJson,
      table_ofJson fun _ c hc => hchildren c (.pattern hentries hc)]
    rfl
  | definitions =>
    obtain ⟨entries, hentries, hv⟩ := encodeTable_eq_some hv
    subst hv
    simp only [only, hentries]
    simp only [Reading.setKeyword, value_ofJson,
      table_ofJson fun _ c hc => hchildren c (.definition hentries hc)]
    rfl
  | allOf =>
    obtain ⟨list, hlist, hv⟩ := encodeLists_eq_some hv
    subst hv
    simp only [only, hlist]
    simp only [Reading.setKeyword, value_ofJson,
      list_ofJson fun c hc => hchildren c (.allOf hlist hc)]
    rfl
  | anyOf =>
    obtain ⟨list, hlist, hv⟩ := encodeLists_eq_some hv
    subst hv
    simp only [only, hlist]
    simp only [Reading.setKeyword, value_ofJson,
      list_ofJson fun c hc => hchildren c (.anyOf hlist hc)]
    rfl
  | oneOf =>
    obtain ⟨list, hlist, hv⟩ := encodeLists_eq_some hv
    subst hv
    simp only [only, hlist]
    simp only [Reading.setKeyword, value_ofJson,
      list_ofJson fun c hc => hchildren c (.oneOf hlist hc)]
    rfl
  | not =>
    obtain ⟨c, hc, hv⟩ := encodeNode_eq_some hv
    subst hv
    have hback : (Reading.ofJson c.encode).schema = .ok c := hchildren c (.not hc)
    simp only [only, hc]
    simp only [Reading.setKeyword, value_ofJson, hback]
    rw [encode_eq]
    rfl
  | items =>
    cases hs : s.items with
    | none => simp [written, hs, encodeItems] at hv
    | some items =>
      simp only [only, hs]
      cases items with
      | single c =>
        simp only [written, hs, encodeItems, Option.some.injEq] at hv
        subst hv
        simp only [Reading.setKeyword, value_ofJson, items_ofJson (hchildren c (.item hs))]
        rw [encode_eq]
        rfl
      | tuple list =>
        simp only [written, hs, encodeItems, Option.some.injEq] at hv
        subst hv
        have hlist := list_ofJson fun c hc => hchildren c (.position hs hc)
        simp only [Reading.setKeyword, value_ofJson, Reading.items, hlist]
        rfl
  | additionalProperties =>
    cases hs : s.additionalProperties with
    | none => simp [written, hs, encodeAdditional] at hv
    | some additional =>
      simp only [only, hs]
      cases additional with
      | allowed verdict =>
        simp only [written, hs, encodeAdditional, Option.some.injEq] at hv
        subst hv
        rfl
      | schema c =>
        simp only [written, hs, encodeAdditional, Option.some.injEq] at hv
        subst hv
        simp only [Reading.setKeyword, value_ofJson,
          additional_ofJson (hchildren c (.additional hs))]
        rw [encode_eq]
        rfl

theorem encodeTable_eq_none {table : Option (List (String × Schema))}
    (h : encodeTable table = none) : table = none := by
  cases table with
  | none => rfl
  | some entries => cases h

theorem encodeLists_eq_none {lists : Option (List Schema)} (h : encodeLists lists = none) :
    lists = none := by
  cases lists with
  | none => rfl
  | some list => cases h

/-- A keyword that is not written is not declared. -/
theorem only_including (h : s.written keyword = none) :
    s.only (including keyword p) = s.only p := by
  cases keyword with
  | properties | patternProperties | definitions =>
    have hnone := encodeTable_eq_none h
    simp only [only, hnone, ite_self]
    rfl
  | allOf | anyOf | oneOf =>
    have hnone := encodeLists_eq_none h
    simp only [only, hnone, ite_self]
    rfl
  | not =>
    have hnone : s.not = none := by
      cases hs : s.not with
      | none => rfl
      | some c => simp [written, hs, encodeNode] at h
    simp only [only, hnone, ite_self]
    rfl
  | items =>
    have hnone : s.items = none := by
      cases hs : s.items with
      | none => rfl
      | some items => cases items <;> simp [written, hs, encodeItems] at h
    simp only [only, hnone, ite_self]
    rfl
  | additionalProperties =>
    have hnone : s.additionalProperties = none := by
      cases hs : s.additionalProperties with
      | none => rfl
      | some additional => cases additional <;> simp [written, hs, encodeAdditional] at h
    simp only [only, hnone, ite_self]
    rfl
  | defaultValue | exclusiveMinimum | exclusiveMaximum =>
    simp only [written] at h
    simp only [only, h, ite_self]
    rfl
  | _ =>
    have hnone := Option.map_eq_none_iff.1 h
    simp only [only, hnone, ite_self]
    rfl

theorem readMembers_append (first rest : List (String × Json)) :
    Reading.readMembers (first ++ rest) =
      Reading.readMembers first ++ Reading.readMembers rest := by
  induction first with
  | nil => rfl
  | cons entry first ih =>
    obtain ⟨name, v⟩ := entry
    simp only [List.cons_append, Reading.readMembers, ih]

/-- Reading the members one after another adds their keywords. -/
theorem ofMembers_written (hnull : s.keywords.NullFree)
    (hchildren : ∀ c, Child c s → ReadsBack c) {keywords seen : List Keyword}
    (hnodup : keywords.Nodup) (hseen : ∀ k ∈ keywords, k ∉ seen) :
    Reading.ofMembers (s.only p) seen (Reading.readMembers (s.writtenMembers keywords)) =
      .ok (s.only fun k => keywords.contains k || p k) := by
  induction keywords generalizing seen p with
  | nil => rfl
  | cons keyword rest ih =>
    obtain ⟨hfresh, hrest⟩ := List.nodup_cons.1 hnodup
    have hincluding (p : Keyword → Bool) : including keyword (fun k => rest.contains k || p k) =
        fun k => (keyword :: rest).contains k || p k := by
      funext k
      simp only [including, List.contains_cons, Bool.or_assoc]
    have hmembers : s.writtenMembers (keyword :: rest) =
        member keyword (s.written keyword) ++ s.writtenMembers rest := List.flatMap_cons
    rw [hmembers]
    cases hv : s.written keyword with
    | none =>
      have hlater := ih (p := p) hrest fun k hk => hseen k (List.mem_cons_of_mem _ hk)
      rw [← hincluding, only_including hv]
      exact hlater
    | some v =>
      have hset := setKeyword_only (p := p) hnull hchildren hv
      have hunseen : seen.contains keyword = false := by
        simpa using hseen keyword List.mem_cons_self
      have hseen' (k : Keyword) (hk : k ∈ rest) : k ∉ keyword :: seen := by
        rw [List.mem_cons, not_or]
        exact ⟨fun he => hfresh (he ▸ hk), hseen k (List.mem_cons_of_mem _ hk)⟩
      -- the keyword is read before the rest, but it is the same set of keywords in the end
      have hlater := ih (p := including keyword p) hrest hseen'
      have hswap : (fun k => rest.contains k || including keyword p k) =
          fun k => (keyword :: rest).contains k || p k := by
        funext k
        simp only [including, List.contains_cons]
        rw [← Bool.or_assoc, Bool.or_comm (rest.contains k)]
      rw [readMembers_append]
      simp only [member, Reading.readMembers, List.singleton_append, Reading.ofMembers,
        Keyword.ofName?_name, hunseen, hset]
      rw [← hswap]
      exact hlater

theorem only_all (s : Schema) : s.only (fun k => Keyword.all.contains k || false) = s := by
  cases s
  simp [only, Keyword.all]

theorem nodup_all : Keyword.all.Nodup := by decide

theorem readsBack (h : Throughout Keywords.NullFree s) : ReadsBack s := by
  induction s using child_induction with
  | h s ih =>
    obtain ⟨hnull, hbelow⟩ := throughout_iff.1 h
    have hchildren (c : Schema) (hc : Child c s) : ReadsBack c := ih c hc (hbelow c hc)
    have hseen (k : Keyword) (_ : k ∈ Keyword.all) : k ∉ [] := List.not_mem_nil
    have hmembers := ofMembers_written (p := fun _ => false) hnull hchildren nodup_all hseen
    rw [only_all] at hmembers
    rw [ReadsBack, encode_eq, Reading.ofJson]
    exact hmembers

theorem decode_encode (h : Throughout Keywords.NullFree s) : decode s.encode = .ok s := by
  have hback := readsBack h
  unfold ReadsBack at hback
  rw [encode_eq] at hback ⊢
  exact hback

theorem mergeable_nullFree : Mergeable Keywords.NullFree where
  empty := ⟨nofun, nofun, nofun⟩
  clearReference h := ⟨h.1, h.2, h.3⟩
  required h := ⟨h.1, h.2, h.3⟩
  fillAbsent ha hb :=
    ⟨fun h => (or_eq_some h).elim ha.1 hb.1, fun h => (or_eq_some h).elim ha.2 hb.2,
      fun h => (or_eq_some h).elim ha.3 hb.3⟩

end Schema

end SchemaCatalog
