namespace SchemaCatalog

/-- Entries in order of first appearance. Writers keep the keys distinct. -/
abbrev Entries (α : Type) := List (String × α)

namespace Entries

variable {α : Type}

def keys (entries : Entries α) : List String := entries.map Prod.fst

def has (entries : Entries α) (key : String) : Bool := (entries.lookup key).isSome

/-- Writes `value` under `key`: in place if the key is there, else at the end. -/
def put : Entries α → String → α → Entries α
  | [], key, value => [(key, value)]
  | (k, v) :: rest, key, value =>
    if key == k then (k, value) :: rest else (k, v) :: put rest key value

/-- Writes every entry of the second list, in order. -/
def putAll (entries new : Entries α) : Entries α :=
  new.foldl (fun acc (key, value) => acc.put key value) entries

/-- Adds the entries of the second list whose keys are not there yet. -/
def addMissing (entries new : Entries α) : Entries α :=
  new.foldl (fun acc (key, value) => if acc.has key then acc else acc ++ [(key, value)]) entries

/-- The list of entries with repeated keys resolved: the last value, at the first position. -/
def distinct (entries : Entries α) : Entries α := putAll [] entries

/-- Removes the first entry under `key` whose value passes `test`, if there is one. -/
def extract? (key : String) (test : α → Bool) : Entries α → Option (Entries α)
  | [] => none
  | (k, v) :: rest =>
    if key == k && test v then some rest else (extract? key test rest).map ((k, v) :: ·)

@[simp] theorem keys_nil : keys ([] : Entries α) = [] := rfl

@[simp] theorem keys_cons (key : String) (value : α) (rest : Entries α) :
    keys ((key, value) :: rest) = key :: keys rest := rfl

theorem lookup_cons (k key : String) (value : α) (rest : Entries α) :
    List.lookup key ((k, value) :: rest) = if key = k then some value else rest.lookup key := by
  by_cases h : key = k
  · simp [h]
  · simp [List.lookup_cons, h, beq_false_of_ne h]

theorem lookup_put (entries : Entries α) (key other : String) (value : α) :
    (entries.put key value).lookup other =
      if other = key then some value else entries.lookup other := by
  induction entries with
  | nil => simp [put, lookup_cons]
  | cons entry rest ih =>
    obtain ⟨k, v⟩ := entry
    by_cases hk : key = k
    · subst hk
      by_cases h : other = key <;> simp [put, lookup_cons, h]
    · by_cases h : other = k
      · subst h
        simp [put, hk, Ne.symm hk]
      · simp [put, lookup_cons, hk, h, ih]

theorem keys_put (entries : Entries α) (key : String) (value : α) :
    keys (entries.put key value) =
      if key ∈ keys entries then keys entries else keys entries ++ [key] := by
  induction entries with
  | nil => simp [put]
  | cons entry rest ih =>
    obtain ⟨k, v⟩ := entry
    by_cases hk : key = k
    · simp [put, hk]
    · by_cases hm : key ∈ keys rest <;> simp [put, hk, ih, hm]

end Entries

end SchemaCatalog
