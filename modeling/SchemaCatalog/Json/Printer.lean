import SchemaCatalog.Json.Basic
import SchemaCatalog.Decimal.Shortest

namespace SchemaCatalog

namespace Numeral

/-- How floats are written: positionally with at least one decimal when the exponent of the first
digit is at least `-5` and at most `15`, else with an exponent that always has a sign. -/
def positional (exponent : Int) : Bool := -5 ≤ exponent && exponent ≤ 15

def renderDigits (d : Decimal.Digits) : List Char :=
  if positional d.exponent then
    if d.exponent < 0 then
      '0' :: '.' :: List.replicate (-d.exponent - 1).toNat '0' ++ d.digits
    else
      let whole := d.exponent.toNat + 1
      let padded := d.digits ++ List.replicate (whole - d.digits.length) '0'
      let decimals := padded.drop whole
      padded.take whole ++ '.' :: (if decimals.isEmpty then ['0'] else decimals)
  else
    let mantissa := match d.digits with
      | [c] => [c]
      | c :: rest => c :: '.' :: rest
      | [] => []
    let power := (toString d.exponent.natAbs).toList
    mantissa ++ 'e' :: (if d.exponent < 0 then '-' else '+') :: power

def render : Numeral → String
  | .integer n => toString n
  | .float bits =>
    let b := Decimal.Binary.ofBits bits
    let text := String.ofList (renderDigits (Decimal.shortest b))
    if b.negative then "-" ++ text else text

end Numeral

namespace Json

def hexDigit (n : Nat) : Char := if n < 10 then Char.ofNat (48 + n) else Char.ofNat (87 + n)

/-- How a character stands inside a string: only quote, backslash and controls are escaped. -/
def escapeChar (c : Char) : List Char :=
  match c with
  | '"' => ['\\', '"']
  | '\\' => ['\\', '\\']
  | '\x08' => ['\\', 'b']
  | '\x0c' => ['\\', 'f']
  | '\n' => ['\\', 'n']
  | '\r' => ['\\', 'r']
  | '\t' => ['\\', 't']
  | c =>
    if c.toNat < 32 then
      ['\\', 'u', '0', '0', hexDigit (c.toNat / 16), hexDigit (c.toNat % 16)]
    else [c]

def renderString (s : String) : String :=
  "\"" ++ String.ofList (s.toList.flatMap escapeChar) ++ "\""

def enclose (left separator right : String) (parts : List String) : String :=
  left ++ separator.intercalate parts ++ right

mutual

def render : Json → String
  | .null => "null"
  | .bool b => if b then "true" else "false"
  | .number n => n.render
  | .string s => renderString s
  | .array items => enclose "[" "," "]" (renderItems items)
  | .object members => enclose "\x7b" "," "\x7d" (renderMembers members)

def renderItems : List Json → List String
  | [] => []
  | item :: rest => render item :: renderItems rest

def renderMembers : List (String × Json) → List String
  | [] => []
  | (key, value) :: rest => (renderString key ++ ":" ++ render value) :: renderMembers rest

end

def newLine (level : Nat) : String := "\n" ++ String.ofList (List.replicate (2 * level) ' ')

/-- Texts on lines of their own between two marks; nothing between the marks if there are none. -/
def encloseLines (left right : String) (level : Nat) (parts : List String) : String :=
  if parts.isEmpty then left ++ right
  else
    let inner := newLine (level + 1)
    enclose (left ++ inner) ("," ++ inner) (newLine level ++ right) parts

mutual

/-- The indented text, at a nesting level. -/
def renderIndented (level : Nat) : Json → String
  | .array items => encloseLines "[" "]" level (indentedItems (level + 1) items)
  | .object members => encloseLines "\x7b" "\x7d" level (indentedMembers (level + 1) members)
  | .null => "null"
  | .bool b => if b then "true" else "false"
  | .number n => n.render
  | .string s => renderString s

def indentedItems (level : Nat) : List Json → List String
  | [] => []
  | item :: rest => renderIndented level item :: indentedItems level rest

def indentedMembers (level : Nat) : List (String × Json) → List String
  | [] => []
  | (key, value) :: rest =>
    (renderString key ++ ": " ++ renderIndented level value) :: indentedMembers level rest

end

def renderPretty (value : Json) : String := renderIndented 0 value

end Json

end SchemaCatalog
