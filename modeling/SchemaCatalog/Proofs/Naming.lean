import SchemaCatalog.Catalog.Basic
import SchemaCatalog.Proofs.Text.Heads
import Mathlib.Data.List.Infix

namespace SchemaCatalog

open Text (StartsOutside startsOutside_append startsOutside_upperCamel startsOutside_lowerCamel
  exists_uppercase)

namespace Naming

theorem typeName_eq (lead stub : String) (convention : NamingConvention) :
    typeName lead stub convention = lead ++ typeName "" stub convention := by
  simp only [typeName, String.empty_append]

theorem startsOutside_typeName (stub : String) (convention : NamingConvention) :
    StartsOutside 'a' 'z' (typeName "" stub convention).toList := by
  cases convention with
  | json =>
    have hname : typeName "" stub .json = Text.upperCamel stub := String.empty_append
    rw [hname]
    exact startsOutside_upperCamel stub
  | proto =>
    have hname : typeName "" stub .proto = capitalize (identifier stub) := String.empty_append
    rw [hname, capitalize]
    cases (identifier stub).toList with
    | nil => nofun
    | cons c rest =>
      rw [String.toList_ofList]
      exact startsOutside_append (exists_uppercase c) rest

/-- Two names that fields get the same identifier from. -/
def Alike : NamingConvention → String → String → Prop
  | .json, a, b => Text.lowerCamel a = Text.lowerCamel b
  | .proto, a, b => a = b

instance : (convention : NamingConvention) → (a b : String) → Decidable (Alike convention a b)
  | .json, _, _ => inferInstanceAs (Decidable (_ = _))
  | .proto, _, _ => inferInstanceAs (Decidable (_ = _))

theorem guardField_cases (camel : String) :
    guardField camel = camel ∨ guardField camel = "_" ++ camel := by
  unfold guardField
  split
  · rename_i hempty
    rw [String.toList_eq_nil_iff.1 hempty]
    exact .inr rfl
  · split
    · exact .inr rfl
    · exact .inl rfl

theorem not_startsOutside_underscore (text : String) :
    ¬ StartsOutside '_' '_' ("_" ++ text).toList := by
  intro h
  rw [String.toList_append] at h
  exact absurd (h '_' rfl) (by decide)

theorem guardField_inj {a b : String} (ha : StartsOutside '_' '_' a.toList)
    (hb : StartsOutside '_' '_' b.toList) : guardField a = guardField b ↔ a = b := by
  refine ⟨fun h => ?_, fun h => h ▸ rfl⟩
  rcases guardField_cases a with hga | hga <;> rcases guardField_cases b with hgb | hgb <;>
    rw [hga, hgb] at h
  · exact h
  · rw [h] at ha
    exact absurd ha (not_startsOutside_underscore b)
  · rw [← h] at hb
    exact absurd hb (not_startsOutside_underscore a)
  · exact (String.append_right_inj "_").1 h

/-- Fields get the same identifier exactly if their names are alike: the mark in front of numbers
and of nothing does not make names meet. -/
theorem fieldName_eq_iff {convention : NamingConvention} {a b : String} :
    fieldName a convention = fieldName b convention ↔ Alike convention a b := by
  cases convention with
  | json => exact guardField_inj (startsOutside_lowerCamel a) (startsOutside_lowerCamel b)
  | proto => exact Iff.rfl

end Naming

/-- The primitives with tags that go on behind a leading text, if at all, other than with a small
letter. -/
def tagsAfter (lead : String) : List Primitive :=
  Primitive.all.filter fun p => lead.toList.isPrefixOf p.name.toList &&
    decide (StartsOutside 'a' 'z' (p.name.toList.drop lead.toList.length))

theorem Primitive.mem_all (p : Primitive) : p ∈ all := by
  cases p <;> decide

theorem Primitive.name_injective : Function.Injective name := by
  intro p q
  cases p <;> cases q <;> decide

theorem typeName_of_suffix (convention : NamingConvention) {p : Primitive} {body : List Char}
    (hbody : body <:+ p.name.toList) (hlarge : StartsOutside 'a' 'z' body) :
    Naming.typeName "" (String.ofList body) convention = String.ofList body := by
  have hall : ∀ body ∈ p.name.toList.tails, StartsOutside 'a' 'z' body →
      Naming.typeName "" (String.ofList body) convention = String.ofList body := by
    cases convention <;> cases p <;> decide +kernel
  exact hall body ((List.mem_tails _ _).2 hbody) hlarge

/-- The tags after a leading text are the primitives that types can be called like under it. -/
theorem mem_tagsAfter_iff {lead : String} {p : Primitive} (convention : NamingConvention) :
    p ∈ tagsAfter lead ↔ ∃ stub, Naming.typeName lead stub convention = p.name := by
  have htag : p ∈ tagsAfter lead ↔ ∃ body, lead.toList ++ body = p.name.toList ∧
      StartsOutside 'a' 'z' body := by
    simp only [tagsAfter, List.mem_filter, p.mem_all, true_and, Bool.and_eq_true,
      List.isPrefixOf_iff_prefix, decide_eq_true_eq]
    constructor
    · rintro ⟨hfront, hlarge⟩
      exact ⟨_, List.prefix_iff_eq_append.1 hfront, hlarge⟩
    · rintro ⟨body, hname, hlarge⟩
      rw [← hname, List.drop_left]
      exact ⟨List.prefix_append _ _, hlarge⟩
  rw [htag]
  constructor
  · rintro ⟨body, hname, hlarge⟩
    refine ⟨String.ofList body, ?_⟩
    rw [Naming.typeName_eq, typeName_of_suffix convention ⟨_, hname⟩ hlarge, ← String.toList_inj,
      String.toList_append, String.toList_ofList, hname]
  · rintro ⟨stub, hstub⟩
    rw [Naming.typeName_eq] at hstub
    exact ⟨_, by rw [← hstub, String.toList_append],
      Naming.startsOutside_typeName stub convention⟩

example : tagsAfter "" = [.any] ∧ tagsAfter "int" = [.int32, .int64] ∧ tagsAfter "Api" = [] := by
  decide +kernel

end SchemaCatalog
