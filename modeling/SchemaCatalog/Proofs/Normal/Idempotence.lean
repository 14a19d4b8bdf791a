import SchemaCatalog.Proofs.Documents
import SchemaCatalog.Proofs.Normal.Compositional
import SchemaCatalog.Proofs.Schema.Reading

namespace SchemaCatalog

namespace Schema

variable {scope : Scope} {root normal s t : Schema}

/-- No alternative is a choice itself. -/
def Flat (s : Schema) : Prop :=
  ∀ n, Within n s → ∀ list, n.oneOf = some list → ∀ a ∈ list, a.isChoice = false

theorem flat_iff : Flat s ↔ (∀ list, s.oneOf = some list → ∀ a ∈ list, a.isChoice = false) ∧
    ∀ c, Child c s → Flat c := by
  constructor
  · exact fun h => ⟨h s (.refl s), fun c hc n hn => h n (hn.child hc)⟩
  · intro h n hn
    cases within_iff.1 hn with
    | inl hn => exact hn ▸ h.1
    | inr hn =>
      obtain ⟨c, hc, hn⟩ := hn
      exact h.2 c hc n hn

theorem splice_of_not_choice (h : ∀ list, s.oneOf = some list → ∀ a ∈ list, a.isChoice = false) :
    s.splice = s := by
  unfold splice
  cases hs : s.oneOf with
  | none => rfl
  | some members =>
    have hplain := alternativesOf_of_not_choice (h members hs)
    cases s
    cases hs
    dsimp only
    rw [hplain]

theorem flat_splice (h : ∀ c, Child c s → Flat c) : Flat s.splice := by
  unfold splice
  cases hs : s.oneOf with
  | none => exact flat_iff.2 ⟨fun list hlist => (nomatch hs.symm.trans hlist), h⟩
  | some members =>
    refine flat_iff.2 ⟨fun list hlist a ha => ?_, fun c hc => ?_⟩
    · cases hlist
      exact not_choice_of_alternatives members a ha
    · cases child_withOneOf hc with
      | inl hc => exact h c hc
      | inr hc =>
        obtain ⟨m, hm, hc⟩ := mem_alternativesOf.1 hc
        have hmember := h m (.oneOf hs hm)
        exact fun n hn => hmember n (hn.trans (within_of_alternatives m c hc))

theorem flat_flattenOneOf (s : Schema) : Flat s.flattenOneOf.1 := by
  suffices h : ∀ t, rewrite (fun node => some node.splice) s = some t → Flat t from
    h _ (rewrite_splice s)
  induction s using child_induction with
  | h s ih =>
    intro t ht
    obtain ⟨s', halike, hs'⟩ := exists_of_rewrite ht
    cases hs'
    refine flat_splice fun c' hc' => ?_
    obtain ⟨c, hc, hrewrite⟩ := halike.flip.child hc'
    exact ih c hc c' hrewrite

theorem flattenOneOf_of_flat (h : Flat s) : s.flattenOneOf.1 = s := by
  have hself : rewrite (fun node => some node.splice) s = some s :=
    rewrite_self fun n hn => congrArg some (splice_of_not_choice (h n hn))
  rw [rewrite_splice] at hself
  exact Option.some.inj hself

theorem merges_of_free {registry : Registry} (h : AllOfFree s) : Merges registry s s := by
  refine ⟨0, rewrite_self fun n hn => ?_⟩
  rw [mergeBy, h n hn]

theorem normalize_self_iff (hfree : AllOfFree s) (hflat : Flat s)
    (hpasses : 0 < scope.options.maxPasses) :
    s.normalize scope = .ok s ↔ Inside scope.Stays s := by
  refine ⟨normalize_stays, fun hstays => normalize_eq_ok_iff.2 ⟨?_⟩⟩
  have hsettles : ∃ n < scope.options.maxPasses, scope.Settles n s s := ⟨0, hpasses, rfl, hstays⟩
  exact ⟨s, s, s, hsettles, merges_of_free hfree, hsettles, flattenOneOf_of_flat hflat⟩

theorem flat_of_normalize (h : root.normalize scope = .ok normal) :
    Flat normal ∧ 0 < scope.options.maxPasses := by
  obtain ⟨_, _, tree, ⟨_, hn, _⟩, _, _, hflattens⟩ := normalize_eq_ok_iff.1 h
  exact ⟨hflattens ▸ flat_flattenOneOf tree, Nat.zero_lt_of_lt hn⟩

theorem nullFree_expand {registry : Registry} {r : String} {copy : Schema}
    (hdocuments : ∀ e ∈ registry.documents, Throughout Keywords.NullFree e.2)
    (hcopy : registry.expand r = .ok copy) : Throughout Keywords.NullFree copy := by
  obtain ⟨target, htarget, heq⟩ := Registry.expand_eq_ok hcopy
  obtain ⟨id, document, hdocument, hwithin, _⟩ := Registry.resolve_ok htarget
  have hnull : Throughout Keywords.NullFree target :=
    inherited_throughout.within (hdocuments _ hdocument) hwithin
  have hrename (s t : Schema) (hs : Throughout Keywords.NullFree s)
      (ht : some (renameNode (Reference.qualify · (Reference.parse r).document) s) = some t) :
      Throughout Keywords.NullFree t := by
    cases ht
    obtain ⟨hnode, hbelow⟩ := throughout_iff.1 hs
    refine throughout_iff.2 ⟨?_, fun c hc => hbelow c (child_renameNode.1 hc)⟩
    unfold renameNode
    cases s.reference with
    | none => exact hnode
    | some r => exact ⟨hnode.1, hnode.2, hnode.3⟩
  rw [heq]
  exact rewrite_keeps inherited_throughout hrename hnull (rewrite_mapReferences _ target)

theorem lookup_writtenMembers_of_ne {key : String}
    (hkey : ∀ keyword : Keyword, keyword.name ≠ key) (keywords : List Keyword) :
    (s.writtenMembers keywords).lookup key = none := by
  induction keywords with
  | nil => rfl
  | cons keyword rest ih =>
    rw [lookup_writtenMembers_cons, if_neg (hkey keyword).symm, ih]

theorem detect_encode (s : Schema) : Dialect.detect s.encode = .jsonSchema := by
  have hmember (key : String) (hkey : ∀ keyword : Keyword, keyword.name ≠ key) :
      s.encode.stringMember? key = none := by
    have hlookup : (s.writtenMembers Keyword.all).lookup key = none :=
      lookup_writtenMembers_of_ne hkey _
    rw [encode_eq]
    simp only [Json.stringMember?, Json.member?, hlookup, Option.bind_none]
  have hswagger := hmember "swagger" fun keyword => by cases keyword <;> decide
  have hopenapi := hmember "openapi" fun keyword => by cases keyword <;> decide
  rw [Dialect.detect, hswagger, hopenapi]
  rfl

end Schema

namespace Scope

def leaves (scope : Scope) (reference : String) : Bool :=
  match (scope.isInlinable reference).toOption with
  | some true => (scope.isRecursive reference).toOption.getD false
  | some false => true
  | none => false

theorem stays_of_leaves {scope : Scope} {r : String} (h : scope.leaves r = true) :
    scope.Stays r := by
  unfold leaves at h
  split at h
  · rename_i hinlinable
    cases hrecursive : (scope.isRecursive r).toOption with
    | none => simp [hrecursive] at h
    | some verdict =>
      rw [hrecursive] at h
      cases h
      exact .inr ⟨eq_ok_of_toOption hinlinable, eq_ok_of_toOption hrecursive⟩
  · rename_i hkept
    exact .inl (eq_ok_of_toOption hkept)
  · cases h

end Scope

namespace Setup

open Schema

/-- What references mean in a run on this root, if no documents are read from files. -/
def scopeOf (setup : Setup) (root : Schema) : Scope where
  registry := setup.documents.foldl (fun registry (id, schema) => registry.register id schema)
    (({} : Registry).registerRoot root)
  options := setup.options

variable {setup : Setup} {document : Json} {normal : Schema}

theorem normalize_ok_iff (hfolder : setup.folder = none)
    (hdialect : Dialect.detect document = .jsonSchema) :
    setup.normalize document = .ok normal ↔
      (setup.options.validate = true → MetaSchema.checkDocument document .jsonSchema = .ok ()) ∧
        ∃ root, readSchema document = .ok root ∧
          root.normalize (setup.scopeOf root) = .ok normal := by
  have hroot : rootSchema .jsonSchema document = readSchema document := rfl
  unfold Setup.normalize scope registry
  rw [hdialect]
  dsimp only
  rw [hroot, hfolder]
  cases hread : readSchema document with
  | error e =>
    split
    · cases MetaSchema.checkDocument document .jsonSchema <;> simp [bind, Except.bind]
    · simp [bind, Except.bind]
  | ok root =>
    split
    · rename_i hvalidate
      cases hcheck : MetaSchema.checkDocument document .jsonSchema with
      | error e => simp [bind, Except.bind, hvalidate]
      | ok => simp [bind, Except.bind, pure, Except.pure, scopeOf]
    · rename_i hvalidate
      simp [bind, Except.bind, pure, Except.pure, scopeOf, hvalidate]

theorem read_normal (hfolder : setup.folder = none)
    (hdialect : Dialect.detect document = .jsonSchema)
    (hdocuments : ∀ e ∈ setup.documents, ∃ value, readSchema value = .ok e.2)
    (h : setup.normalize document = .ok normal) : readSchema normal.encode = .ok normal := by
  have hread {value : Json} {s : Schema} (h : readSchema value = .ok s) :
      Throughout Keywords.NullFree s := by
    unfold readSchema at h
    cases hdecode : decode value with
    | error fault =>
      rw [hdecode] at h
      cases h
    | ok u =>
      rw [hdecode] at h
      cases h
      exact nullFree_of_decode hdecode
  obtain ⟨_, root, hroot, hnormal⟩ := (normalize_ok_iff hfolder hdialect).1 h
  have hregistered : ∀ e ∈ (setup.scopeOf root).registry.documents,
      Throughout Keywords.NullFree e.2 := by
    intro e he
    cases Registry.mem_foldl_register he with
    | inl he => exact Registry.mem_registerRoot he ▸ hread hroot
    | inr he =>
      obtain ⟨value, hvalue⟩ := hdocuments e he
      exact hread hvalue
  have hnull := normalize_kept (kept_throughout mergeable_nullFree)
    (fun _ _ => nullFree_expand hregistered) hnormal (hread hroot)
  rw [readSchema, decode_encode hnull]
  rfl

/-- Normalizing the written form of a normal form without `allOf` lists gives it again if and only
if that form passes the check, where one is asked for, and all its references stay as seen from a
document that is the normal form. -/
theorem normalize_encode_iff (hfolder : setup.folder = none)
    (hdialect : Dialect.detect document = .jsonSchema)
    (hdocuments : ∀ e ∈ setup.documents, ∃ value, readSchema value = .ok e.2)
    (h : setup.normalize document = .ok normal)
    (hfree : ∀ path node, (path, node) ∈ normal.nodes "#" → node.allOf = none) :
    setup.normalize normal.encode = .ok normal ↔
      (setup.options.validate = true →
        MetaSchema.checkDocument normal.encode .jsonSchema = .ok ()) ∧
      ∀ r ∈ normal.references, (setup.scopeOf normal).Stays r := by
  obtain ⟨_, root, _, hnormal⟩ := (normalize_ok_iff hfolder hdialect).1 h
  obtain ⟨hflat, hpasses⟩ := flat_of_normalize hnormal
  have hlists : AllOfFree normal := fun n hn => by
    obtain ⟨path, hnode⟩ := mem_nodes_iff.2 hn
    exact hfree path n hnode
  have hself : normal.normalize (setup.scopeOf normal) = .ok normal ↔
      Inside (setup.scopeOf normal).Stays normal := normalize_self_iff hlists hflat hpasses
  rw [normalize_ok_iff hfolder (detect_encode normal), read_normal hfolder hdialect hdocuments h]
  refine and_congr_right fun _ => ?_
  constructor
  · intro hagain
    obtain ⟨again, hread, hagain⟩ := hagain
    cases hread
    exact hself.1 hagain
  · exact fun hstays => ⟨normal, rfl, hself.2 hstays⟩

/-- The normal form of `aliased` still refers to an object and to a list of itself. -/
theorem normalize_encode_aliased :
    ∃ normal, normalize {} aliased.encode = .ok normal ∧ normal.references.length = 3 ∧
      normalize {} normal.encode = .ok normal := by
  have hnormal : (normalize {} aliased.encode).toOption.map (fun normal =>
      (normal.nodes "#").all (fun e => e.2.allOf.isNone) && normal.references.length == 3 &&
        normal.references.all (scopeOf {} normal).leaves) = some true := by
    decide +kernel
  have hdialect : Dialect.detect aliased.encode = .jsonSchema := detect_encode aliased
  cases h : normalize {} aliased.encode with
  | error e =>
    rw [h] at hnormal
    cases hnormal
  | ok normal =>
    rw [h] at hnormal
    obtain ⟨hshape, hleaves⟩ := Bool.and_eq_true_iff.1 (Option.some.inj hnormal)
    obtain ⟨hfree, hlength⟩ := Bool.and_eq_true_iff.1 hshape
    refine ⟨normal, rfl, beq_iff_eq.1 hlength, ?_⟩
    have hdocuments : ∀ e ∈ ([] : List (String × Schema)), ∃ value, readSchema value = .ok e.2 :=
      nofun
    refine (normalize_encode_iff rfl hdialect hdocuments h fun path node hnode => ?_).2 ⟨nofun, ?_⟩
    · exact Option.isNone_iff_eq_none.1 (List.all_eq_true.1 hfree _ hnode)
    · exact fun r hr => Scope.stays_of_leaves (List.all_eq_true.1 hleaves r hr)

/-- Normalizing a normal form can change it: of `composed` the first run leaves a list, and the
second merges it. -/
theorem exists_normalize_encode_ne :
    ¬ ∀ (setup : Setup) (document : Json) (normal : Schema), setup.folder = none →
      setup.documents = [] → Dialect.detect document = .jsonSchema →
      setup.normalize document = .ok normal → setup.normalize normal.encode = .ok normal := by
  intro hall
  have hlists : (normalize {} composed.encode).toOption.bind (fun normal =>
      (normalize {} normal.encode).toOption.map fun again =>
        ((normal.nodes "#").any fun e => e.2.allOf.isSome) &&
          !(again.nodes "#").any fun e => e.2.allOf.isSome) = some true := by
    decide +kernel
  cases h : normalize {} composed.encode with
  | error e =>
    rw [h] at hlists
    cases hlists
  | ok normal =>
    have hagain := hall {} composed.encode normal rfl rfl (detect_encode composed) h
    simp [h, hagain, Except.toOption] at hlists

end Setup

end SchemaCatalog
