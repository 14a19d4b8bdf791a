import SchemaCatalog.Entries

namespace SchemaCatalog

/-- A JSON number: an integer literal, or a finite binary64 given by its bits. -/
inductive Numeral where
  | integer (value : Int)
  | float (bits : UInt64)
deriving DecidableEq, Repr, Inhabited

namespace Numeral

def toFloat : Numeral → Float
  | .integer n => Float.ofInt n
  | .float bits => Float.ofBits bits

/-- Either of the two zeros of binary64: no bit is set but the sign. -/
def isZero (bits : UInt64) : Bool := bits <<< 1 == 0

/-- Numbers of one kind and value: the two float zeros agree, an integer and a float never do. -/
def same : Numeral → Numeral → Bool
  | .integer a, .integer b => a == b
  | .float a, .float b => a == b || (isZero a && isZero b)
  | _, _ => false

end Numeral

/-- A JSON value. -/
inductive Json where
  | null
  | bool (value : Bool)
  | number (value : Numeral)
  | string (value : String)
  | array (items : List Json)
  | object (members : List (String × Json))
deriving Repr, Inhabited

namespace Json

def int (value : Int) : Json := .number (.integer value)

def nat (value : Nat) : Json := .int value

/-- An object; a repeated key takes its last value at its first position. -/
def ofEntries (members : Entries Json) : Json := .object members.distinct

def strings (items : List String) : Json := .array (items.map .string)

def ofString? : Option String → Json
  | none => .null
  | some s => .string s

def member? : Json → String → Option Json
  | .object members, key => members.lookup key
  | _, _ => none

def members? : Json → Option (Entries Json)
  | .object members => some members
  | _ => none

def items? : Json → Option (List Json)
  | .array items => some items
  | _ => none

def string? : Json → Option String
  | .string s => some s
  | _ => none

def bool? : Json → Option Bool
  | .bool b => some b
  | _ => none

def stringMember? (value : Json) (key : String) : Option String :=
  (value.member? key).bind string?

/-- The name of the kind of value. -/
def kindName : Json → String
  | .null => "null"
  | .bool _ => "boolean"
  | .number _ => "number"
  | .string _ => "string"
  | .array _ => "array"
  | .object _ => "object"

mutual

/-- Equality of values; the order of object members does not count. -/
def same : Json → Json → Bool
  | .null, .null => true
  | .bool a, .bool b => a == b
  | .number a, .number b => a.same b
  | .string a, .string b => a == b
  | .array xs, .array ys => sameItems xs ys
  | .object xs, .object ys => sameMembers xs ys
  | _, _ => false

def sameItems : List Json → List Json → Bool
  | [], [] => true
  | x :: xs, y :: ys => same x y && sameItems xs ys
  | _, _ => false

/-- Each member of the first list is matched with one of the second. -/
def sameMembers : List (String × Json) → List (String × Json) → Bool
  | [], ys => ys.isEmpty
  | (key, x) :: xs, ys =>
    match Entries.extract? key (same x) ys with
    | some rest => sameMembers xs rest
    | none => false

end

instance : BEq Json := ⟨same⟩

end Json

end SchemaCatalog
