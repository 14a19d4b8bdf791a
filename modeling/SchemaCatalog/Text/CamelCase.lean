import SchemaCatalog.Text.Alphanumeric
import SchemaCatalog.Text.LetterCase

namespace SchemaCatalog.Text

/-- The letter case of the word read so far. -/
inductive CaseMode where
  | unknown
  | lower
  | upper
deriving DecidableEq, Repr

/-- The mode after a character; one without case changes nothing. -/
def CaseMode.next (mode : CaseMode) (c : Char) : CaseMode :=
  if isLowercase c then .lower else if isUppercase c then .upper else mode

/-- Cuts alphanumeric text at changes of letter case. `word` holds the current word, last character
first. -/
def cutAtCase (mode : CaseMode) (word : List Char) : List Char → List (List Char)
  | [] => []
  | [c] => [(c :: word).reverse]
  | c :: next :: rest =>
    if mode.next c == .lower && isUppercase next then
      (c :: word).reverse :: cutAtCase .unknown [] (next :: rest)
    else if mode == .upper && isUppercase c && isLowercase next then
      word.reverse :: cutAtCase .unknown [c] (next :: rest)
    else cutAtCase (mode.next c) (c :: word) (next :: rest)

/-- The stretches of alphanumeric characters, empty ones included. -/
def alphanumericParts : List Char → List (List Char)
  | [] => [[]]
  | c :: rest =>
    if !isAlphanumeric c then [] :: alphanumericParts rest
    else
      match alphanumericParts rest with
      | [] => [[c]]
      | part :: parts => (c :: part) :: parts

def words (text : List Char) : List (List Char) :=
  (alphanumericParts text).flatMap (cutAtCase .unknown [])

/-- A word in lower case. A sigma that ends a word takes its final form. -/
def lowerWord : List Char → List Char
  | [] => []
  | ['Σ'] => ['ς']
  | c :: rest => lowercase c ++ lowerWord rest

def capitalizeWord : List Char → List Char
  | [] => []
  | c :: rest => uppercase c ++ lowerWord rest

def upperCamel (text : String) : String :=
  String.ofList ((words text.toList).flatMap capitalizeWord)

/-- The first word in lower case, the others capitalized. -/
def lowerCamel (text : String) : String :=
  match words text.toList with
  | [] => ""
  | first :: rest => String.ofList (lowerWord first ++ rest.flatMap capitalizeWord)

end SchemaCatalog.Text
