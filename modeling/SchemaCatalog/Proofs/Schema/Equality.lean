import SchemaCatalog.Proofs.Schema.Nodes
import SchemaCatalog.Schema.Equality

namespace SchemaCatalog

theorem Entries.extract?_cons_self {α : Type} {test : α → Bool} {key : String} {value : α}
    (rest : Entries α) (h : test value = true) :
    Entries.extract? key test ((key, value) :: rest) = some rest := by
  simp only [extract?, beq_self_eq_true, h, Bool.and_self, if_true]

theorem Numeral.same_self (n : Numeral) : n.same n = true := by
  cases n with
  | integer value => exact beq_self_eq_true value
  | float bits => simp only [same, beq_self_eq_true, Bool.true_or]

theorem sameOption_self {α : Type} {same : α → α → Bool} (h : ∀ a, same a a = true)
    (a : Option α) : sameOption same a a = true := by
  cases a with
  | none => rfl
  | some a => exact h a

namespace Json

mutual

theorem same_self : (v : Json) → v.same v = true
  | .null => rfl
  | .bool b => by rw [same, beq_self_eq_true]
  | .number n => by rw [same, n.same_self]
  | .string text => by rw [same, beq_self_eq_true]
  | .array items => by rw [same, sameItems_self items]
  | .object members => by rw [same, sameMembers_self members]

theorem sameItems_self : (items : List Json) → sameItems items items = true
  | [] => rfl
  | item :: rest => by rw [sameItems, same_self item, sameItems_self rest, Bool.and_self]

theorem sameMembers_self : (members : List (String × Json)) → sameMembers members members = true
  | [] => rfl
  | (key, v) :: rest => by
    rw [sameMembers, Entries.extract?_cons_self rest (same_self v)]
    exact sameMembers_self rest

end

end Json

theorem Keywords.same_self (kw : Keywords) : kw.same kw = true := by
  have hitems := sameOption_self Json.sameItems_self kw.enumeration
  have hvalue := sameOption_self Json.same_self
  have hnumeral := sameOption_self Numeral.same_self
  simp only [same, beq_self_eq_true, hitems, hvalue, hnumeral, Bool.and_self]

namespace Schema

theorem sameList_self {list : List Schema} (h : ∀ c ∈ list, c.same c = true) :
    sameList list list = true := by
  induction list with
  | nil => rw [sameList]
  | cons c rest ih =>
    have hrest := ih fun c hc => h c (List.mem_cons_of_mem _ hc)
    rw [sameList, h c List.mem_cons_self, hrest, Bool.and_self]

theorem sameLists_self {lists : Option (List Schema)}
    (h : ∀ list, lists = some list → ∀ c ∈ list, c.same c = true) :
    sameLists lists lists = true := by
  cases lists with
  | none => rw [sameLists]
  | some list => rw [sameLists, sameList_self (h list rfl)]

theorem sameEntries_self {entries : Entries Schema}
    (h : ∀ key c, (key, c) ∈ entries → c.same c = true) : sameEntries entries entries = true := by
  induction entries with
  | nil => rw [sameEntries, List.isEmpty_nil]
  | cons entry rest ih =>
    obtain ⟨key, c⟩ := entry
    have hc := h key c List.mem_cons_self
    rw [sameEntries, Entries.extract?_cons_self rest hc]
    exact ih fun key c hc => h key c (List.mem_cons_of_mem _ hc)

theorem sameTable_self {table : Option (Entries Schema)}
    (h : ∀ entries, table = some entries → ∀ key c, (key, c) ∈ entries → c.same c = true) :
    sameTable table table = true := by
  cases table with
  | none => rw [sameTable]
  | some entries => rw [sameTable, sameEntries_self (h entries rfl)]

theorem sameItems_self {items : Option (Items Schema)}
    (hsingle : ∀ c, items = some (.single c) → c.same c = true)
    (htuple : ∀ list, items = some (.tuple list) → ∀ c ∈ list, c.same c = true) :
    sameItems items items = true := by
  match items with
  | none => rw [sameItems]
  | some (.single c) => rw [sameItems, hsingle c rfl]
  | some (.tuple list) => rw [sameItems, sameList_self (htuple list rfl)]

theorem sameAdditional_self {additional : Option (Additional Schema)}
    (h : ∀ c, additional = some (.schema c) → c.same c = true) :
    sameAdditional additional additional = true := by
  match additional with
  | none => rw [sameAdditional]
  | some (.allowed verdict) => rw [sameAdditional, beq_self_eq_true]
  | some (.schema c) => rw [sameAdditional, h c rfl]

theorem sameNode_self {node : Option Schema} (h : ∀ c, node = some c → c.same c = true) :
    sameNode node node = true := by
  cases node with
  | none => rw [sameNode]
  | some c => rw [sameNode, h c rfl]

theorem same_self (s : Schema) : s.same s = true := by
  induction s using child_induction with
  | h s ih =>
    obtain ⟨kw, props, patterns, defs, items, additional, allOf, anyOf, oneOf, not⟩ := s
    have hprops : sameTable props props = true :=
      sameTable_self fun _ h _ c hc => ih c (.property h hc)
    have hpatterns : sameTable patterns patterns = true :=
      sameTable_self fun _ h _ c hc => ih c (.pattern h hc)
    have hdefs : sameTable defs defs = true :=
      sameTable_self fun _ h _ c hc => ih c (.definition h hc)
    have hitems : sameItems items items = true :=
      sameItems_self (fun c h => ih c (.item h)) fun _ h c hc => ih c (.position h hc)
    have hadditional : sameAdditional additional additional = true :=
      sameAdditional_self fun c h => ih c (.additional h)
    have hallOf : sameLists allOf allOf = true :=
      sameLists_self fun _ h c hc => ih c (.allOf h hc)
    have hanyOf : sameLists anyOf anyOf = true :=
      sameLists_self fun _ h c hc => ih c (.anyOf h hc)
    have honeOf : sameLists oneOf oneOf = true :=
      sameLists_self fun _ h c hc => ih c (.oneOf h hc)
    have hnot : sameNode not not = true :=
      sameNode_self fun c h => ih c (.not h)
    unfold same
    simp only [kw.same_self, hprops, hpatterns, hdefs, hitems, hadditional, hallOf, hanyOf, honeOf,
      hnot, Bool.and_self]

instance : ReflBEq Schema := ⟨fun {s} => s.same_self⟩

end Schema

end SchemaCatalog
