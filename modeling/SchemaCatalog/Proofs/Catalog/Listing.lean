import SchemaCatalog.Proofs.Catalog.Life

namespace SchemaCatalog

namespace Operation

def followItem (document : Json) (entry : String × Json) : Outcome (String × Json) := do
  return (entry.1, ← document.follow entry.2)

def pathItems (document : Json) : Outcome (List (String × Json)) :=
  (((document.member? "paths").bind Json.members?).getD []).mapM (followItem document)

def itemVerbs (item : Json) : List String := verbs.filter fun verb => (item.member? verb).isSome

/-- What a method says of its operation. -/
structure Site.Describes (site : Site) (naming : NamingConvention) (m : Method) : Prop where
  name : m.name = site.name naming
  path : m.path = site.path
  verb : m.verb = site.verb.map Char.toUpper
  description : m.description = site.description

theorem pathSites_eq (document : Json) (dialect : Dialect) (paths : List (String × Json)) :
    pathSites document dialect paths = (do
      let items ← paths.mapM (followItem document)
      return items.flatMap fun entry => itemSites document dialect entry.1 entry.2) := by
  induction paths with
  | nil => rfl
  | cons entry rest ih =>
    obtain ⟨path, item⟩ := entry
    rw [pathSites, List.mapM_cons, followItem, ih]
    cases document.follow item with
    | error e => rfl
    | ok item => cases rest.mapM (followItem document) <;> rfl

theorem map_itemSites {α : Type} (f : String → String → α) (document : Json) (dialect : Dialect)
    (path : String) (item : Json) :
    (itemSites document dialect path item).map (fun entry => f entry.1.path entry.1.verb) =
      (itemVerbs item).map (f path) := by
  unfold itemSites itemVerbs
  induction verbs with
  | nil => rfl
  | cons verb rest ih =>
    cases hmember : item.member? verb with
    | none =>
      rw [List.filterMap_cons_none (by rw [hmember]; rfl),
        List.filter_cons_of_neg (by simp [hmember]), ih]
    | some operation =>
      rw [List.filterMap_cons_some (by rw [hmember]; rfl),
        List.filter_cons_of_pos (by simp [hmember]), List.map_cons, List.map_cons, ih]

theorem map_of_describes {naming : NamingConvention} {sites : List (Site × List Json)}
    {methods : List Method}
    (h : List.Forall₂ (fun entry m => entry.1.Describes naming m) sites methods) :
    methods.map (fun m => (m.path, m.verb)) =
      sites.map fun entry => (entry.1.path, entry.1.verb.map Char.toUpper) := by
  induction h with
  | nil => rfl
  | cons hfirst _ ih => rw [List.map_cons, List.map_cons, ih, hfirst.path, hfirst.verb]

end Operation

namespace Builder

open Operation

variable {b : Builder} {p p' : Progress}

theorem describes_of_run {site : Site} {shared : List Json} {m : Method}
    (h : (site.method b shared).run p = .ok (m, p')) : site.Describes b.options.naming m := by
  unfold Site.method at h
  dsimp only at h
  obtain ⟨_, _, _, h⟩ := run_bind h
  obtain ⟨_, _, _, h⟩ := run_bind h
  obtain ⟨_, _, _, h⟩ := run_bind h
  obtain ⟨_, _, _, h⟩ := run_bind h
  cases h
  exact ⟨rfl, rfl, rfl, rfl⟩

theorem Adds.describes {sites : List (Site × List Json)} {offered : List CatalogType}
    (h : Adds b p sites offered p') :
    ∃ methods, p'.catalog.methods = p.catalog.methods ++ methods ∧
      List.Forall₂ (fun entry m => entry.1.Describes b.options.naming m) sites methods := by
  induction h with
  | done => exact ⟨[], (List.append_nil _).symm, .nil⟩
  | @next p p₁ p₂ p₃ p' site shared rest parameters responses method offered hparameters
      hresponses hmethod _ ih =>
    obtain ⟨hp₃, _⟩ := run_method_of hparameters hresponses hmethod
    obtain ⟨methods, hmethods, hdescribes⟩ := ih
    have hsame : p₃.catalog.methods = p.catalog.methods := by
      rw [hp₃, Catalog.methods_offerAll, (queues_operation hparameters hresponses).catalog]
    refine ⟨method :: methods, ?_, .cons (describes_of_run hmethod) hdescribes⟩
    rw [hmethods, List.append_cons, ← hsame]
    rfl

/-- Adding the methods of a document adds one for each verb of each of its paths, in this order, and
counts them. What the catalog has and what waits stays in front of what is new. -/
theorem addMethods_lists {document : Json} {dialect : Dialect} {n : Nat}
    (h : (addMethods b document dialect).run p = .ok (n, p')) :
    ∃ items methods, pathItems document = .ok items ∧
      p'.catalog.methods = p.catalog.methods ++ methods ∧ n = methods.length ∧
      methods.map (fun m => (m.path, m.verb)) =
        (items.flatMap fun entry => (itemVerbs entry.2).map fun verb =>
          (entry.1, verb.map Char.toUpper)) ∧
      List.Forall₂ (fun entry m => entry.1.Describes b.options.naming m)
        (items.flatMap fun entry => itemSites document dialect entry.1 entry.2) methods ∧
      p.catalog.types <+: p'.catalog.types ∧ p.pending <+: p'.pending ∧
      p.requested <+: p'.requested ∧ p.diagnostics <+: p'.diagnostics := by
  obtain ⟨sites, offered, hsites, hn, hadds⟩ := (ensures_addPathMethods_adds _ p).of_ok h
  rw [pathSites_eq] at hsites
  obtain ⟨items, hitems, heq⟩ := bind_eq_ok hsites
  cases heq
  obtain ⟨methods, hmethods, hdescribes⟩ := hadds.describes
  refine ⟨items, methods, hitems, hmethods, hn.trans hdescribes.length_eq, ?_, hdescribes, ?_⟩
  · rw [map_of_describes hdescribes, List.map_flatMap]
    apply List.flatMap_congr
    intro entry _
    exact map_itemSites (fun path verb => (path, verb.map Char.toUpper)) document dialect _ _
  · have hadded := hadds.added
    have henters := hadds.enters
    refine ⟨?_, ⟨_, henters.pending.symm⟩, ⟨_, henters.requested.symm⟩, hadded.diagnostics⟩
    rw [hadded.types]
    exact Catalog.types_prefix_offerAll

def sharedPaths : Json :=
  .object [("openapi", .string "3.0.0"),
    ("paths", .object [
      ("/pets", .object [("$ref", .string "#/items/pets")]),
      ("/owners", .object [("delete", .object [])])]),
    ("items", .object [
      ("pets", .object [("post", .object []), ("summary", .string "Pets"),
        ("get", .object [])])])]

def healthChecked : Progress where
  catalog.methods := [⟨"GetHealth", "/health", "GET", none, none, none⟩]

theorem addMethods_lists_sharedPaths : ∃ n p',
    (addMethods branchingBuilder sharedPaths .openApi3).run healthChecked = .ok (n, p') ∧ n = 3 ∧
      p'.catalog.methods.map (fun m => (m.path, m.verb)) =
        [("/health", "GET"), ("/pets", "GET"), ("/pets", "POST"), ("/owners", "DELETE")] := by
  have hends : ((addMethods branchingBuilder sharedPaths .openApi3).run healthChecked).isOk := by
    decide +kernel
  cases hrun : (addMethods branchingBuilder sharedPaths .openApi3).run healthChecked with
  | error e =>
    rw [hrun] at hends
    cases hends
  | ok result =>
    obtain ⟨items, methods, hitems, hmethods, hn, hpairs, _⟩ := addMethods_lists hrun
    cases hitems
    have hlisted : methods.map (fun m => (m.path, m.verb)) =
        [("/pets", "GET"), ("/pets", "POST"), ("/owners", "DELETE")] :=
      hpairs.trans (by decide +kernel)
    refine ⟨_, _, rfl, ?_, ?_⟩
    · rw [hn, ← List.length_map (fun m => (m.path, m.verb)), hlisted]
      rfl
    · rw [hmethods, List.map_append, hlisted]
      rfl

end Builder

end SchemaCatalog
