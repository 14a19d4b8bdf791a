import SchemaCatalog.Proofs.Json.Scanning
import SchemaCatalog.Options.Decoding

namespace SchemaCatalog

open Json (Event Located)

theorem Entries.put_of_not_mem {α : Type} {entries : Entries α} {key : String} (value : α)
    (h : key ∉ entries.keys) : entries.put key value = entries ++ [(key, value)] := by
  induction entries with
  | nil => rfl
  | cons entry rest ih =>
    obtain ⟨k, v⟩ := entry
    rw [keys_cons, List.mem_cons, not_or] at h
    rw [put, if_neg (by simpa using h.1), ih h.2, List.cons_append]

theorem Entries.putAll_eq_append {α : Type} (entries : Entries α) {new : Entries α}
    (h : (entries ++ new).keys.Nodup) : entries.putAll new = entries ++ new := by
  induction new generalizing entries with
  | nil => exact (List.append_nil _).symm
  | cons entry rest ih =>
    obtain ⟨key, value⟩ := entry
    have hfresh : key ∉ entries.keys := by
      intro hkey
      rw [keys, List.map_append] at h
      exact (List.nodup_append.1 h).2.2 key hkey key List.mem_cons_self rfl
    have hput : entries.putAll ((key, value) :: rest) = (entries.put key value).putAll rest := rfl
    rw [hput, put_of_not_mem value hfresh, ih _ ?_, List.append_assoc, List.singleton_append]
    rwa [List.append_assoc]

theorem OptionField.ofName?_name (f : OptionField) : ofName? f.name = some f := by
  cases f <;> decide

namespace Options

def table (entries : Entries String) : Entries Json :=
  entries.map fun (key, s) => (key, .string s)

def written (o : Options) : OptionField → Json
  | .naming => .string o.naming.name
  | .kept => .strings o.kept
  | .patternNames => .object (table o.patternNames)
  | .typeLead => .string o.typeLead
  | .rootName => .ofString? o.rootName
  | .maxPasses => .nat o.maxPasses
  | .validate => .bool o.validate

def writtenMembers (o : Options) (fields : List OptionField) : Entries Json :=
  fields.map fun f => (f.name, o.written f)

theorem encode_eq (o : Options) : o.encode = .object (o.writtenMembers OptionField.all) := rfl

def copy (source o : Options) : OptionField → Options
  | .naming => { o with naming := source.naming }
  | .kept => { o with kept := source.kept }
  | .patternNames => { o with patternNames := source.patternNames }
  | .typeLead => { o with typeLead := source.typeLead }
  | .rootName => { o with rootName := source.rootName }
  | .maxPasses => { o with maxPasses := source.maxPasses }
  | .validate => { o with validate := source.validate }

theorem foldl_copy_all (source o : Options) : OptionField.all.foldl (copy source) o = source := rfl

namespace Reader

variable {α β : Type} {x : Reader α} {a : α} {b : β} {e : Event} {es es' : List Event}

/-- The reader takes these events, whatever follows them, and gives `a`. -/
def Reads (x : Reader α) (es : List Event) (a : α) : Prop :=
  ∀ text located tail last, located.map Located.event = es →
    ∃ last', x.run ⟨text, located ++ tail, none, last⟩ = .ok (a, ⟨text, tail, none, last'⟩)

theorem reads_pure (a : α) : Reads (pure a) [] a := by
  intro text located tail last h
  cases List.map_eq_nil_iff.1 h
  exact ⟨last, rfl⟩

theorem Reads.bind {f : α → Reader β} (hx : Reads x es a) (hf : Reads (f a) es' b) :
    Reads (x >>= f) (es ++ es') b := by
  intro text located tail last h
  obtain ⟨first, second, rfl, hfirst, hsecond⟩ := List.map_eq_append_iff.1 h
  obtain ⟨middle, hx⟩ := hx text first (second ++ tail) last hfirst
  obtain ⟨last', hf⟩ := hf text second tail middle hsecond
  refine ⟨last', ?_⟩
  rw [StateT.run_bind, List.append_assoc, hx]
  exact hf

theorem Reads.map {f : α → β} (hx : Reads x es a) : Reads (do return f (← x)) es (f a) := by
  have hreads : Reads (x >>= fun a => pure (f a)) (es ++ []) (f a) := hx.bind (reads_pure (f a))
  rwa [List.append_nil] at hreads

theorem reads_peek_bind {f : Located → Reader β}
    (h : ∀ located, located.event = e → Reads (f located) (e :: es) b) :
    Reads (peek >>= f) (e :: es) b := by
  intro text located tail last hevents
  obtain ⟨first, rest, rfl, hfirst, _⟩ := List.map_eq_cons_iff.1 hevents
  exact h first hfirst text (first :: rest) tail last hevents

theorem reads_next_bind {f : Located → Reader β}
    (h : ∀ located, located.event = e → Reads (f located) es b) :
    Reads (next >>= f) (e :: es) b := by
  intro text located tail last hevents
  obtain ⟨first, rest, rfl, hfirst, hrest⟩ := List.map_eq_cons_iff.1 hevents
  exact h first hfirst text rest tail first.stop hrest

theorem reads_get_bind {f : Source → Reader β}
    (h : ∀ src, src.failure = none → es.length ≤ src.events.length → Reads (f src) es b) :
    Reads (get >>= f) es b := by
  intro text located tail last hevents
  refine h ⟨text, located ++ tail, none, last⟩ rfl ?_ text located tail last hevents
  rw [← hevents, List.length_map, List.length_append]
  exact Nat.le_add_right _ _

theorem reads_text (s : String) : Reads text [.scalar (.string s)] s := by
  apply reads_next_bind
  intro located hevent
  rw [hevent]
  exact reads_pure s

theorem reads_optionalText (s : Option String) :
    Reads optionalText [.scalar (.ofString? s)] s := by
  apply reads_peek_bind
  intro located hevent
  cases s with
  | none =>
    rw [hevent]
    apply reads_next_bind
    exact fun _ _ => reads_pure none
  | some s =>
    rw [hevent]
    exact (reads_text s).map

theorem reads_truth (b : Bool) : Reads truth [.scalar (.bool b)] b := by
  apply reads_next_bind
  intro located hevent
  rw [hevent]
  exact reads_pure b

theorem reads_count (n : Nat) : Reads count [.scalar (.nat n)] n := by
  apply reads_next_bind
  intro located hevent
  rw [hevent]
  exact reads_pure n

theorem reads_naming (convention : NamingConvention) :
    Reads naming [.scalar (.string convention.name)] convention := by
  apply reads_get_bind
  intro src hfailure _
  rw [hfailure]
  cases src.events with
  | nil | cons _ _ =>
    apply reads_next_bind
    intro located hevent
    simp only [hevent, Reader.convention, NamingConvention.ofName?_name]
    exact reads_pure convention

/-- The texts of an array are read in order, up to its end. -/
theorem reads_textItems (items : List String) {fuel : Nat}
    (hfuel : (Json.itemEvents (items.map .string)).length < fuel) (done : List String) :
    Reads (textItems fuel done) (Json.itemEvents (items.map .string) ++ [.endArray])
      (done.reverse ++ items) := by
  induction items generalizing fuel done with
  | nil =>
    obtain ⟨left, rfl⟩ := Nat.exists_eq_add_of_lt hfuel
    apply reads_peek_bind
    intro located hevent
    rw [hevent]
    apply reads_next_bind
    intro _ _
    rw [List.append_nil]
    exact reads_pure _
  | cons item items ih =>
    obtain ⟨left, rfl⟩ := Nat.exists_eq_add_of_lt hfuel
    have hrest := ih (Nat.lt_of_lt_of_le (Nat.lt_succ_self _) (Nat.le_add_right _ left))
      (item :: done)
    rw [List.reverse_cons, List.append_assoc] at hrest
    apply reads_peek_bind
    intro located hevent
    rw [hevent]
    exact (reads_text item).bind hrest

theorem reads_texts (items : List String) :
    Reads texts (Json.events (.strings items)) items := by
  rw [Json.strings, Json.events]
  apply reads_next_bind
  intro located hevent
  rw [hevent]
  apply reads_get_bind
  intro src _ hlength
  rw [List.length_append] at hlength
  exact reads_textItems items (by omega) []

/-- The members of an object of texts are read in order, up to its end. -/
theorem reads_textMembers (members : Entries String) {fuel : Nat}
    (hfuel : (Json.memberEvents (table members)).length < fuel) (done : Entries String) :
    Reads (textMembers fuel done) (Json.memberEvents (table members) ++ [.endObject])
      (done.putAll members) := by
  induction members generalizing fuel done with
  | nil =>
    obtain ⟨left, rfl⟩ := Nat.exists_eq_add_of_lt hfuel
    apply reads_next_bind
    intro located hevent
    rw [hevent]
    exact reads_pure done
  | cons member members ih =>
    obtain ⟨key, s⟩ := member
    obtain ⟨left, rfl⟩ := Nat.exists_eq_add_of_lt hfuel
    have hrest := ih (Nat.lt_of_lt_of_le (Nat.lt_succ_of_lt (Nat.lt_succ_self _))
      (Nat.le_add_right _ left)) (done.put key s)
    apply reads_next_bind
    intro located hevent
    rw [hevent]
    exact (reads_text s).bind hrest

theorem reads_textTable (entries : Entries String) (h : entries.keys.Nodup) :
    Reads textTable (Json.events (.object (table entries))) entries := by
  rw [Json.events]
  apply reads_next_bind
  intro located hevent
  rw [hevent]
  apply reads_get_bind
  intro src _ hlength
  rw [List.length_append] at hlength
  have hreads := reads_textMembers entries (Nat.lt_succ_of_le (Nat.le_of_add_right_le hlength)) []
  rwa [Entries.putAll_eq_append [] h] at hreads

theorem reads_field {source : Options} (hnames : source.patternNames.keys.Nodup) (o : Options)
    (f : OptionField) : Reads (field o f) (source.written f).events (source.copy o f) := by
  cases f with
  | naming => exact (reads_naming source.naming).map
  | kept => exact (reads_texts source.kept).map
  | patternNames => exact (reads_textTable source.patternNames hnames).map
  | typeLead => exact (reads_text source.typeLead).map
  | rootName =>
    have hevents : (source.written .rootName).events = [.scalar (.ofString? source.rootName)] := by
      rw [written]
      cases source.rootName <;> rfl
    rw [hevents]
    exact (reads_optionalText source.rootName).map
  | maxPasses => exact (reads_count source.maxPasses).map
  | validate => exact (reads_truth source.validate).map

theorem reads_members {source : Options} (hnames : source.patternNames.keys.Nodup)
    {fields seen : List OptionField} (hfields : fields.Nodup) (hseen : ∀ f ∈ fields, f ∉ seen)
    {fuel : Nat} (hfuel : (Json.memberEvents (source.writtenMembers fields)).length < fuel)
    (o : Options) : Reads (members fuel o seen)
      (Json.memberEvents (source.writtenMembers fields) ++ [.endObject])
      (fields.foldl source.copy o) := by
  induction fields generalizing fuel seen o with
  | nil =>
    obtain ⟨left, rfl⟩ := Nat.exists_eq_add_of_lt hfuel
    apply reads_next_bind
    intro located hevent
    rw [hevent]
    exact reads_pure o
  | cons f fields ih =>
    have hevents : Json.memberEvents (source.writtenMembers (f :: fields)) =
        .key f.name :: ((source.written f).events ++
          Json.memberEvents (source.writtenMembers fields)) := rfl
    obtain ⟨left, rfl⟩ := Nat.exists_eq_add_of_lt hfuel
    obtain ⟨hf, hrest⟩ := List.forall_mem_cons.1 hseen
    rw [hevents, List.cons_append, List.append_assoc]
    apply reads_next_bind
    intro located hevent
    simp only [hevent, OptionField.ofName?_name, List.contains_iff_mem, hf, if_false]
    apply (reads_field hnames o f).bind
    apply ih (List.nodup_cons.1 hfields).2
    · intro g hg hmem
      cases hmem with
      | head => exact (List.nodup_cons.1 hfields).1 hg
      | tail _ hmem => exact hrest g hg hmem
    · rw [List.length_cons, List.length_append]
      omega

theorem reads_options {source : Options} (hnames : source.patternNames.keys.Nodup) :
    Reads options source.encode.events source := by
  rw [encode_eq, Json.events]
  apply reads_next_bind
  intro located hevent
  rw [hevent]
  apply reads_get_bind
  intro src _ hlength
  rw [List.length_append] at hlength
  have hmembers : Reads (members (src.events.length + 1) {} []) _ _ :=
    reads_members hnames (by decide) (fun _ _ => List.not_mem_nil)
      (Nat.lt_succ_of_le (Nat.le_of_add_right_le hlength)) {}
  rw [foldl_copy_all] at hmembers
  rw [← List.append_nil (_ ++ _)]
  apply hmembers.bind
  apply reads_get_bind
  intro src hfailure _
  rw [hfailure]
  exact reads_pure source

end Reader

theorem parse_of_events {o : Options} (hnames : o.patternNames.keys.Nodup) {text : String}
    {located : List Located} (htext : Json.Events.ofText text = ⟨located, none⟩)
    (hevents : located.map Located.event = o.encode.events) : parse text = .ok o := by
  obtain ⟨last, hrun⟩ := Reader.reads_options hnames text located [] 0 hevents
  rw [List.append_nil] at hrun
  simp only [parse, htext, hrun]
  rfl

/-- What can be set with one call. -/
inductive Setter where
  | naming (convention : NamingConvention)
  | keep (reference : String)
  | namePattern (pattern name : String)
  | typeLead (lead : String)
  | rootName (name : String)
  | maxPasses (passes : UInt64)
  | validate (validates : Bool)

def set (o : Options) : Setter → Options
  | .naming convention => { o with naming := convention }
  | .keep reference => o.keep reference
  | .namePattern pattern name => o.namePattern pattern name
  | .typeLead lead => { o with typeLead := lead }
  | .rootName name => { o with rootName := some name }
  | .maxPasses passes => { o with maxPasses := passes.toNat }
  | .validate validates => { o with validate := validates }

/-- What holds of all options that can be set: no pattern is named twice, and the number of passes
is one of 64 bits. -/
structure Settable (o : Options) : Prop where
  distinct : o.patternNames.keys.Nodup
  bounded : o.maxPasses < Nat.pow 2 64

theorem Settable.set {o : Options} (h : o.Settable) (call : Setter) : (o.set call).Settable := by
  cases call with
  | naming _ => exact ⟨h.distinct, h.bounded⟩
  | keep _ => exact ⟨h.distinct, h.bounded⟩
  | namePattern pattern name =>
    refine ⟨?_, h.bounded⟩
    have hdistinct := h.distinct
    rw [Options.set, namePattern, Entries.keys_put]
    split
    · exact hdistinct
    · rename_i hfresh
      refine List.nodup_append.2 ⟨hdistinct, by simp, fun key hkey key' hkey' he => ?_⟩
      exact hfresh (List.mem_singleton.1 hkey' ▸ he ▸ hkey)
  | typeLead _ => exact ⟨h.distinct, h.bounded⟩
  | rootName _ => exact ⟨h.distinct, h.bounded⟩
  | maxPasses passes => exact ⟨h.distinct, passes.toNat_lt⟩
  | validate _ => exact ⟨h.distinct, h.bounded⟩

theorem settable_foldl {o : Options} (h : o.Settable) (calls : List Setter) :
    (calls.foldl Options.set o).Settable := by
  induction calls generalizing o with
  | nil => exact h
  | cons call calls ih => exact ih (h.set call)

theorem fits_written {o : Options} (h : o.Settable) (f : OptionField) :
    Json.Fits 1 (o.written f) := by
  cases f with
  | naming => exact .string _
  | kept =>
    refine .array fun item hitem => ?_
    obtain ⟨s, _, rfl⟩ := List.mem_map.1 hitem
    exact .string s
  | patternNames =>
    refine .object fun member hmember => ?_
    obtain ⟨entry, _, rfl⟩ := List.mem_map.1 hmember
    exact .string entry.2
  | typeLead => exact .string _
  | rootName =>
    rw [written]
    cases o.rootName with
    | none => exact .null
    | some s => exact .string s
  | maxPasses =>
    have hbounded := h.bounded
    simp only [Nat.pow_eq] at hbounded
    refine .int ⟨by omega, ?_⟩
    simp only [Json.maxSignificand, Nat.pow_eq]
    omega
  | validate => exact .bool _

theorem fits_encode {o : Options} (h : o.Settable) : Json.Fits 2 o.encode := by
  rw [encode_eq]
  refine .object fun member hmember => ?_
  obtain ⟨f, _, rfl⟩ := List.mem_map.1 hmember
  exact fits_written h f

/-- Options that were set by any calls are read back from their text just as they were. -/
theorem parse_encode (calls : List Setter) :
    parse (calls.foldl set {}).encode.render = .ok (calls.foldl set {}) := by
  have hsettable : (calls.foldl set {}).Settable :=
    settable_foldl ⟨by decide, by decide⟩ calls
  obtain ⟨located, htext, hevents⟩ := Json.ofText_render (fits_encode hsettable) (by decide)
  exact parse_of_events hsettable.distinct htext hevents

end Options

end SchemaCatalog
