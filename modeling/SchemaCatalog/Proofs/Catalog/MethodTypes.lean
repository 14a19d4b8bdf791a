import SchemaCatalog.Proofs.Catalog.Offers
import SchemaCatalog.Proofs.Text.CamelCase

namespace SchemaCatalog

open Text (Hump endsCased)

namespace Naming

/-- A name stays when it is spelled again, and so does a capital that is put behind it. -/
structure Steady (name : String) (convention : NamingConvention) : Prop where
  stays : typeName "" name convention = name
  cased : convention = .json → endsCased name.toList = true

theorem steady_of_ordinary {stub : String}
    (h : ∀ w ∈ Text.words stub.toList, Text.isOrdinary w = true) :
    Steady (typeName "" stub .json) .json := by
  obtain ⟨hstays, hcased⟩ := Text.upperCamel_of_ordinary h
  have hname : typeName "" stub .json = Text.upperCamel stub := String.empty_append
  rw [hname]
  exact ⟨String.empty_append.trans hstays, fun _ => hcased⟩

def identifierChar (c : Char) : Char := if Text.isAlphanumeric c || c == '_' then c else '_'

theorem identifierChar_idem (c : Char) : identifierChar (identifierChar c) = identifierChar c := by
  by_cases hc : (Text.isAlphanumeric c || c == '_') = true
  · have hkept : identifierChar c = c := if_pos hc
    rw [hkept, hkept]
  · have hreplaced : identifierChar c = '_' := if_neg hc
    rw [hreplaced]
    rfl

theorem toList_identifier (text : String) :
    (identifier text).toList = text.toList.map identifierChar :=
  String.toList_map

/-- A name with an ASCII letter or digit in front is steady where it only gets a capital. -/
theorem steady_of_head {stub : String} (h : ∀ c ∈ stub.toList.head?, c.isAlphanum = true) :
    Steady (typeName "" stub .proto) .proto := by
  have hname (text : String) : typeName "" text .proto = capitalize (identifier text) :=
    String.empty_append
  refine ⟨?_, nofun⟩
  rw [hname, hname]
  cases hstub : stub.toList with
  | nil =>
    have hempty : identifier "" = "" := by
      rw [← String.toList_inj, toList_identifier]
      rfl
    rw [String.toList_eq_nil_iff.1 hstub, hempty]
    exact congrArg capitalize hempty
  | cons c rest =>
    rw [hstub] at h
    obtain ⟨hread, hcapital, hupper, hstays⟩ := Text.upper_of_isAlphanum (h c rfl)
    have hc : identifierChar c = c := by rw [identifierChar, hread]; rfl
    have hcapital : identifierChar c.toUpper = c.toUpper := by rw [identifierChar, hcapital]; rfl
    have hlist : (identifier stub).toList = c :: rest.map identifierChar := by
      rw [toList_identifier, hstub, List.map_cons, hc]
    have hfirst : capitalize (identifier stub) =
        String.ofList (c.toUpper :: rest.map identifierChar) := by
      rw [capitalize, hlist]
      simp only [hupper, List.singleton_append]
    have hsecond : (identifier (capitalize (identifier stub))).toList =
        c.toUpper :: rest.map identifierChar := by
      rw [toList_identifier, hfirst, String.toList_ofList, List.map_cons, hcapital, List.map_map]
      congr 1
      exact List.map_congr_left fun c _ => identifierChar_idem c
    rw [capitalize, hsecond, hfirst]
    simp only [hstays, List.singleton_append]

/-- The text is spelled as ordinary words, or, where it only gets a capital, has an ASCII letter or
digit in front. -/
def Plain (stub : String) : NamingConvention → Prop
  | .json => ∀ w ∈ Text.words stub.toList, Text.isOrdinary w = true
  | .proto => ∀ c ∈ stub.toList.head?, c.isAlphanum = true

theorem steady_of_plain {stub : String} {convention : NamingConvention}
    (h : Plain stub convention) : Steady (typeName "" stub convention) convention := by
  cases convention with
  | json => exact steady_of_ordinary h
  | proto => exact steady_of_head h

variable {first second : Char} {rest : List Char}

theorem identifier_append (name : String) (h : Hump first second rest) :
    identifier (name ++ String.ofList (first :: second :: rest)) =
      identifier name ++ String.ofList (first :: second :: rest) := by
  have hkept : (first :: second :: rest).map identifierChar = first :: second :: rest := by
    refine (List.map_congr_left fun c hc => ?_).trans (List.map_id _)
    rw [identifierChar, h.alphanumeric c hc]
    rfl
  rw [← String.toList_inj, toList_identifier, String.toList_append, List.map_append,
    String.toList_ofList, hkept, String.toList_append, toList_identifier, String.toList_ofList]

theorem capitalize_append (name : String) (h : Hump first second rest) :
    capitalize (name ++ String.ofList (first :: second :: rest)) =
      capitalize name ++ String.ofList (first :: second :: rest) := by
  rw [capitalize, capitalize, String.toList_append, String.toList_ofList]
  cases name.toList with
  | nil =>
    simp only [List.nil_append, h.uppercase, String.empty_append]
    rfl
  | cons c name =>
    simp only [List.cons_append]
    rw [← String.ofList_append, List.append_assoc]

/-- A type is called like a name with a word behind it exactly if the name is steady. -/
theorem typeName_append_iff (h : Hump first second rest) (lead name : String)
    (convention : NamingConvention) :
    typeName lead (name ++ String.ofList (first :: second :: rest)) convention =
        lead ++ name ++ String.ofList (first :: second :: rest) ↔
      Steady name convention := by
  have hsteady : Steady name convention ↔ typeName "" name convention = name ∧
      (convention = .json → endsCased name.toList = true) :=
    ⟨fun h => ⟨h.stays, h.cased⟩, fun h => ⟨h.1, h.2⟩⟩
  rw [hsteady]
  cases convention with
  | json =>
    simp only [typeName, String.append_assoc, String.append_right_inj, String.empty_append,
      Text.upperCamel_append_iff h, forall_const]
  | proto =>
    simp only [typeName, String.append_assoc, String.append_right_inj, String.empty_append,
      identifier_append name h, capitalize_append _ h, String.append_left_inj]
    simp

theorem hump_parameters : Hump 'P' 'a' "rameters".toList :=
  @Text.hump_of_alpha 'p' 'a' "rameters".toList rfl rfl (List.all_eq_true.1 rfl)

theorem hump_responses : Hump 'R' 'e' "sponses".toList :=
  @Text.hump_of_alpha 'r' 'e' "sponses".toList rfl rfl (List.all_eq_true.1 rfl)

end Naming

namespace Builder

variable {b : Builder} {p p' : Progress}

/-- The types that a method has are those asked for under its name. -/
structure NamesTypes (b : Builder) (m : Method) : Prop where
  parameters {t : String} : m.parametersType = some t → t = b.typeName (m.name ++ "Parameters")
  responses {t : String} : m.responsesType = some t → t = b.typeName (m.name ++ "Responses")

theorem name_parametersType {site : Operation.Site} {method : String} {shared : List Json}
    {type : CatalogType} (h : (site.parametersType b method shared).run p = .ok (type, p')) :
    type.name = b.typeName (method ++ "Parameters") := by
  unfold Operation.Site.parametersType at h
  obtain ⟨_, _, _, h⟩ := run_bind h
  obtain ⟨_, _, _, h⟩ := run_bind h
  obtain ⟨_, _, _, h⟩ := run_bind h
  cases h
  rfl

theorem name_responsesType {site : Operation.Site} {method : String} {type : CatalogType}
    (h : (site.responsesType b method).run p = .ok (type, p')) :
    type.name = b.typeName (method ++ "Responses") := by
  unfold Operation.Site.responsesType at h
  obtain ⟨_, _, _, h⟩ := run_bind h
  cases h
  rfl

theorem name_of_addType {type : CatalogType} {name : Option String} {t : String}
    (h : (Operation.Site.addType type).run p = .ok (name, p')) (hname : name = some t) :
    t = type.name := by
  obtain ⟨_, hnames⟩ := run_addType h
  rw [hname] at hnames
  have ht : t ∈ (withFields [type]).map (·.name) := hnames ▸ List.mem_singleton_self t
  obtain ⟨type', htype', ht⟩ := List.mem_map.1 ht
  rw [← ht, List.mem_singleton.1 (List.mem_of_mem_filter htype')]

theorem namesTypes_of_run {site : Operation.Site} {shared : List Json} {m : Method}
    (h : (site.method b shared).run p = .ok (m, p')) : b.NamesTypes m := by
  unfold Operation.Site.method at h
  dsimp only at h
  obtain ⟨parameters, _, hparameters, h⟩ := run_bind h
  obtain ⟨responses, _, hresponses, h⟩ := run_bind h
  obtain ⟨parametersName, _, hparametersName, h⟩ := run_bind h
  obtain ⟨responsesName, _, hresponsesName, h⟩ := run_bind h
  cases h
  constructor
  · intro t ht
    exact (name_of_addType hparametersName ht).trans (name_parametersType hparameters)
  · intro t ht
    exact (name_of_addType hresponsesName ht).trans (name_responsesType hresponses)

theorem Adds.namesTypes {sites : List (Operation.Site × List Json)} {offered : List CatalogType}
    (h : Adds b p sites offered p') (hp : ∀ m ∈ p.catalog.methods, b.NamesTypes m) :
    ∀ m ∈ p'.catalog.methods, b.NamesTypes m := by
  induction h with
  | done => exact hp
  | next hparameters hresponses hmethod _ ih =>
    apply ih
    obtain ⟨hp₃, _⟩ := run_method_of hparameters hresponses hmethod
    intro m hm
    rcases List.mem_append.1 hm with hm | hm
    · rw [hp₃, Catalog.methods_offerAll, (queues_operation hparameters hresponses).catalog] at hm
      exact hp m hm
    · rw [List.mem_singleton.1 hm]
      exact namesTypes_of_run hmethod

end Builder

namespace Setup

variable {setup : Setup} {document : Json} {c : Compilation}

theorem scope_options {dialect : Dialect} {scope : Scope}
    (h : setup.scope document dialect = .ok scope) : scope.options = setup.options := by
  rw [Setup.scope] at h
  obtain ⟨registry, _, h⟩ := bind_eq_ok h
  cases h
  rfl

theorem Course.namesTypes (course : setup.Course document c) :
    ∀ m ∈ c.catalog.methods, (Builder.new course.scope).NamesTypes m := by
  rw [course.catalog_eq, course.drainsRest.settled.catalog, Catalog.methods_offerAll]
  apply course.adds.namesTypes
  rw [course.drains.settled.catalog, Catalog.methods_offerAll, course.queues_asked.catalog]
  nofun

/-- The types of a method are called like the method, with `Parameters` or `Responses` behind it and
the leading text before it, exactly if the name of the method is steady, as it is if it was made
from a plain text. In any case they have this name spelled again as that of a type. -/
theorem compile_methodTypes (h : setup.compile document = .ok c) {m : Method}
    (hm : m ∈ c.catalog.methods) :
    (∀ t, m.parametersType = some t →
      t = Naming.typeName setup.options.typeLead (m.name ++ "Parameters") setup.options.naming ∧
        (t = setup.options.typeLead ++ m.name ++ "Parameters" ↔
          Naming.Steady m.name setup.options.naming)) ∧
    (∀ t, m.responsesType = some t →
      t = Naming.typeName setup.options.typeLead (m.name ++ "Responses") setup.options.naming ∧
        (t = setup.options.typeLead ++ m.name ++ "Responses" ↔
          Naming.Steady m.name setup.options.naming)) ∧
    ∀ stub, m.name = Naming.typeName "" stub setup.options.naming →
      Naming.Plain stub setup.options.naming → Naming.Steady m.name setup.options.naming := by
  obtain ⟨course⟩ := compile_course h
  have hnames := course.namesTypes m hm
  have htypeName (stub : String) : (Builder.new course.scope).typeName stub =
      Naming.typeName setup.options.typeLead stub setup.options.naming := by
    rw [← scope_options course.scope_eq]
    rfl
  refine ⟨fun t ht => ?_, fun t ht => ?_, fun stub hname hplain => ?_⟩
  · have heq := (hnames.parameters ht).trans (htypeName _)
    subst heq
    exact ⟨rfl, Naming.typeName_append_iff Naming.hump_parameters _ _ _⟩
  · have heq := (hnames.responses ht).trans (htypeName _)
    subst heq
    exact ⟨rfl, Naming.typeName_append_iff Naming.hump_responses _ _ _⟩
  · rw [hname]
    exact Naming.steady_of_plain hplain

def limitedOperation (id : String) : Json :=
  .object [("operationId", .string id),
    ("parameters", .array [.object [("name", .string "limit"), ("in", .string "query"),
      ("type", .string "integer")]])]

/-- An interface with an operation whose name has words of one letter, and with one that has longer
ones. -/
def spelledOperations : Json :=
  .object [("swagger", .string "2.0"),
    ("paths", .object [("/pets", .object [("get", limitedOperation "a_b"),
      ("post", limitedOperation "add_pets")])])]

theorem compile_spelledOperations : ∃ c, compile {} spelledOperations = .ok c ∧
    (∃ m ∈ c.catalog.methods, m.name = "AB" ∧ m.parametersType = some "AbParameters") ∧
      ∃ m ∈ c.catalog.methods, m.name = "AddPets" ∧
        m.parametersType = some "AddPetsParameters" := by
  have hresult : (compile {} spelledOperations).toOption.map
      (fun c => c.catalog.methods.map fun m => (m.name, m.parametersType)) =
        some [("AB", some "AbParameters"), ("AddPets", some "AddPetsParameters")] := by
    decide +kernel
  obtain ⟨c, hc, hmethods⟩ := Option.map_eq_some_iff.1 hresult
  have hmethod (name : String) (type : Option String) (h : (name, type) ∈
      [("AB", some "AbParameters"), ("AddPets", some "AddPetsParameters")]) :
      ∃ m ∈ c.catalog.methods, m.name = name ∧ m.parametersType = type := by
    rw [← hmethods] at h
    obtain ⟨m, hm, heq⟩ := List.mem_map.1 h
    exact ⟨m, hm, Prod.mk.inj heq⟩
  exact ⟨c, eq_ok_of_toOption hc, hmethod _ _ List.mem_cons_self,
    hmethod _ _ (List.mem_cons_of_mem _ List.mem_cons_self)⟩

theorem plain_addPets : Naming.Plain "add_pets" .json := by
  change ∀ w ∈ Text.words "add_pets".toList, Text.isOrdinary w = true
  decide

theorem compile_methodTypes_spelled : ∃ c, compile {} spelledOperations = .ok c ∧
    (∃ m ∈ c.catalog.methods, m.name = "AddPets" ∧ Naming.Steady m.name .json) ∧
      ∃ m ∈ c.catalog.methods, m.name = "AB" ∧ ¬ Naming.Steady m.name .json := by
  obtain ⟨c, hc, ⟨m, hm, hname, htype⟩, ⟨m', hm', hname', _⟩⟩ := compile_spelledOperations
  have hsteady := ((compile_methodTypes hc hm).1 _ htype).2
  rw [hname] at hsteady
  have hspelled : m'.name = Naming.typeName "" "add_pets" .json := by
    rw [hname']
    decide
  refine ⟨c, hc, ⟨m', hm', hname', ?_⟩, ⟨m, hm, hname, ?_⟩⟩
  · exact (compile_methodTypes hc hm').2.2 "add_pets" hspelled plain_addPets
  · rw [hname]
    exact mt hsteady.2 (by decide)

/-- The type of parameters can have another name than that of its method with `Parameters` behind
it. -/
theorem exists_methodTypes_ne : ∃ (document : Json) (c : Compilation),
    compile {} document = .ok c ∧ ∃ m ∈ c.catalog.methods, ∃ t,
      m.parametersType = some t ∧ t ≠ ({} : Options).typeLead ++ m.name ++ "Parameters" := by
  obtain ⟨c, hc, ⟨m, hm, hname, htype⟩, _⟩ := compile_spelledOperations
  refine ⟨spelledOperations, c, hc, m, hm, "AbParameters", htype, ?_⟩
  rw [hname]
  decide

end Setup

end SchemaCatalog
