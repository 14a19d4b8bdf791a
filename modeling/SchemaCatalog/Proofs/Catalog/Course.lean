import SchemaCatalog.Proofs.Catalog.Queueing
import SchemaCatalog.Proofs.Catalog.Ending
import SchemaCatalog.Compilation

namespace SchemaCatalog

def Operation.itemSites (document : Json) (dialect : Dialect) (path : String) (item : Json) :
    List (Site × List Json) :=
  verbs.filterMap fun verb => (item.member? verb).map fun operation =>
    (⟨document, dialect, path, verb, operation⟩, listMember item "parameters")

/-- The operations of paths, each item followed to where it is defined. -/
def Operation.pathSites (document : Json) (dialect : Dialect) :
    List (String × Json) → Outcome (List (Site × List Json))
  | [] => return []
  | (path, item) :: rest => do
    let item ← document.follow item
    return itemSites document dialect path item ++ (← pathSites document dialect rest)

def Operation.sites (document : Json) (dialect : Dialect) : Outcome (List (Site × List Json)) :=
  pathSites document dialect (((document.member? "paths").bind Json.members?).getD [])

namespace Builder

/-- Building what waits, one request after the other. `built` lists the requests, each with the type
that is offered to the catalog for it. -/
inductive Drains (b : Builder) : Progress → List (Request × CatalogType) → Progress → Prop
  | done {p} : p.pending = [] → Drains b p [] p
  | next {p p₁ p' r rest type built} : p.pending = r :: rest →
    (b.buildType r).run { p with pending := rest } = .ok (type, p₁) →
    Drains b (p₁.addType type) built p' → Drains b p ((r, type) :: built) p'

def withFields (types : List CatalogType) : List CatalogType :=
  types.filter fun type => !type.fields.isEmpty

/-- Adding the methods of operations, one after the other. `offered` lists the types that are
offered to the catalog. -/
inductive Adds (b : Builder) :
    Progress → List (Operation.Site × List Json) → List CatalogType → Progress → Prop
  | done {p} : Adds b p [] [] p
  | next {p p₁ p₂ p₃ p' site shared rest parameters responses method offered} :
    (site.parametersType b (site.name b.options.naming) shared).run p = .ok (parameters, p₁) →
    (site.responsesType b (site.name b.options.naming)).run p₁ = .ok (responses, p₂) →
    (site.method b shared).run p = .ok (method, p₃) →
    Adds b { p₃ with catalog := p₃.catalog.addMethod method } rest offered p' →
    Adds b p ((site, shared) :: rest) (withFields [parameters, responses] ++ offered) p'

def offerAll (c : Catalog) (types : List CatalogType) : Catalog := types.foldl Catalog.addType c

variable {b : Builder}

theorem Ends.drains {p p' : Progress} {built : List (Request × CatalogType)}
    (h : Ends b p built (.ok p')) : Drains b p built p' := by
  generalize hresult : (.ok p' : Outcome Progress) = result at h
  induction h with
  | done hnone =>
    cases hresult
    exact .done hnone
  | fails _ _ => cases hresult
  | next hpending hrun _ ih => exact .next hpending hrun (ih hresult)

theorem ensures_drain_drains (p : Progress) :
    Ensures b.drain p (fun _ p' => ∃ built, Drains b p built p') fun _ => True := by
  refine (completes_drain (leads_any b) fun _ _ _ _ => trivial).mono (fun _ p' hends => ?_)
    fun _ _ => trivial
  obtain ⟨built, hends⟩ := hends
  exact ⟨built, hends.drains⟩

theorem run_bind {α β : Type} {x : BuildM α} {f : α → BuildM β} {p p' : Progress} {c : β}
    (h : (x >>= f).run p = .ok (c, p')) :
    ∃ a p₁, x.run p = .ok (a, p₁) ∧ (f a).run p₁ = .ok (c, p') := by
  obtain ⟨⟨a, p₁⟩, hx, hf⟩ := bind_eq_ok h
  exact ⟨a, p₁, hx, hf⟩

theorem run_addType {type : CatalogType} {p p' : Progress} {name : Option String}
    (h : (Operation.Site.addType type).run p = .ok (name, p')) :
    p' = { p with catalog := offerAll p.catalog (withFields [type]) } ∧
      name.toList = (withFields [type]).map (·.name) := by
  unfold Operation.Site.addType at h
  split at h
  · rename_i hempty
    cases h
    simp [withFields, offerAll, hempty]
  · rename_i hfields
    cases h
    simp [withFields, offerAll, hfields]

/-- Making a method finds the types of its operation, offers those that have fields, and names
them. -/
theorem run_method {site : Operation.Site} {shared : List Json} {p p₃ : Progress}
    {method : Method} (h : (site.method b shared).run p = .ok (method, p₃)) :
    ∃ parameters p₁ responses p₂,
      (site.parametersType b (site.name b.options.naming) shared).run p = .ok (parameters, p₁) ∧
      (site.responsesType b (site.name b.options.naming)).run p₁ = .ok (responses, p₂) ∧
      p₃ = { p₂ with catalog := offerAll p₂.catalog (withFields [parameters, responses]) } ∧
      method.typeNames = (withFields [parameters, responses]).map (·.name) := by
  unfold Operation.Site.method at h
  dsimp only at h
  obtain ⟨parameters, p₁, hparameters, h⟩ := run_bind h
  obtain ⟨responses, p₂, hresponses, h⟩ := run_bind h
  obtain ⟨parametersName, p₄, hrun, h⟩ := run_bind h
  obtain ⟨hp₄, hparametersName⟩ := run_addType hrun
  obtain ⟨responsesName, p₅, hrun, h⟩ := run_bind h
  obtain ⟨hp₅, hresponsesName⟩ := run_addType hrun
  cases h
  have hsplit : withFields [parameters, responses] =
      withFields [parameters] ++ withFields [responses] :=
    List.filter_append [parameters] [responses]
  refine ⟨parameters, p₁, responses, p₂, hparameters, hresponses, ?_, ?_⟩
  · rw [hp₅, hp₄, hsplit]
    simp only [offerAll, List.foldl_append]
  · rw [Method.typeNames, hparametersName, hresponsesName, hsplit, List.map_append]

theorem run_method_of {site : Operation.Site} {shared : List Json} {p p₁ p₂ p₃ : Progress}
    {parameters responses : CatalogType} {method : Method}
    (hparameters : (site.parametersType b (site.name b.options.naming) shared).run p =
      .ok (parameters, p₁))
    (hresponses : (site.responsesType b (site.name b.options.naming)).run p₁ =
      .ok (responses, p₂))
    (h : (site.method b shared).run p = .ok (method, p₃)) :
    p₃ = { p₂ with catalog := offerAll p₂.catalog (withFields [parameters, responses]) } ∧
      method.typeNames = (withFields [parameters, responses]).map (·.name) := by
  obtain ⟨_, _, _, _, hparameters', hresponses', hp₃, hnames⟩ := run_method h
  cases hparameters.symm.trans hparameters'
  cases hresponses.symm.trans hresponses'
  exact ⟨hp₃, hnames⟩

theorem Adds.append {p p₁ p₂ : Progress} {sites sites' : List (Operation.Site × List Json)}
    {offered offered' : List CatalogType} (h : Adds b p sites offered p₁)
    (h' : Adds b p₁ sites' offered' p₂) : Adds b p (sites ++ sites') (offered ++ offered') p₂ := by
  induction h with
  | done => exact h'
  | next hparameters hresponses hmethod _ ih =>
    rw [List.append_assoc]
    exact .next hparameters hresponses hmethod (ih h')

theorem ensures_addItemMethods_adds {document : Json} {dialect : Dialect} (path : String)
    (item : Json) (verbs : List String) (p : Progress) :
    Ensures (Operation.addItemMethods b document dialect path item verbs) p (fun n p' =>
      ∃ sites offered, sites = (verbs.filterMap fun verb => (item.member? verb).map fun operation =>
        (⟨document, dialect, path, verb, operation⟩, Operation.listMember item "parameters")) ∧
        n = sites.length ∧ Adds b p sites offered p') fun _ => True := by
  induction verbs generalizing p with
  | nil => exact ensures_pure ⟨[], [], rfl, rfl, .done⟩
  | cons verb rest ih =>
    unfold Operation.addItemMethods
    cases hmember : item.member? verb with
    | none =>
      rw [List.filterMap_cons_none (by rw [hmember]; rfl)]
      simp only [pure_bind]
      apply ensures_bind (ih p)
      intro n p' hp'
      rw [Nat.zero_add]
      exact ensures_pure hp'
    | some operation =>
      rw [List.filterMap_cons_some (by rw [hmember]; rfl)]
      dsimp only
      apply ensures_bind (ensures_run (Operation.Site.method _ b _) p)
      intro method p₃ hmethod
      obtain ⟨parameters, p₁, responses, p₂, hparameters, hresponses, _⟩ := run_method hmethod
      apply ensures_modify_bind
      simp only [pure_bind]
      apply ensures_bind (ih _)
      intro n p' hp'
      obtain ⟨sites, offered, hsites, hn, hadds⟩ := hp'
      have hcount : 1 + n = (sites.length + 1) := by rw [hn, Nat.add_comm]
      exact ensures_pure ⟨_, _, congrArg (List.cons _) hsites, hcount,
        .next hparameters hresponses hmethod hadds⟩

theorem ensures_addPathMethods_adds {document : Json} {dialect : Dialect}
    (paths : List (String × Json)) (p : Progress) :
    Ensures (Operation.addPathMethods b document dialect paths) p (fun n p' =>
      ∃ sites offered, Operation.pathSites document dialect paths = .ok sites ∧
        n = sites.length ∧ Adds b p sites offered p') fun _ => True := by
  induction paths generalizing p with
  | nil => exact ensures_pure ⟨[], [], rfl, rfl, .done⟩
  | cons entry rest ih =>
    obtain ⟨path, item⟩ := entry
    unfold Operation.addPathMethods
    refine ensures_lift_bind (fun item' hitem => ?_) fun _ _ => trivial
    apply ensures_bind (ensures_addItemMethods_adds path item' Operation.verbs p)
    intro count p₁ hp₁
    obtain ⟨own, offered, hown, hcount, hadds⟩ := hp₁
    apply ensures_bind (ih p₁)
    intro n p' hp'
    obtain ⟨sites, offered', hsites, hn, hadds'⟩ := hp'
    have hall : Operation.pathSites document dialect ((path, item) :: rest) =
        .ok (own ++ sites) := by
      rw [Operation.pathSites, hitem, hsites, hown]
      rfl
    have htotal : count + n = (own ++ sites).length := by rw [hcount, hn, List.length_append]
    exact ensures_pure ⟨_, _, hall, htotal, hadds.append hadds'⟩

end Builder

end SchemaCatalog
