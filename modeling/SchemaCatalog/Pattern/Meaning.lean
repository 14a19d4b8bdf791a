import SchemaCatalog.Pattern.Extended.Reader

namespace SchemaCatalog.Pattern

/-- The set that an escape stands for, in plain spelling. -/
def asciiSet? : Char → Option String
  | 'd' => some "[0-9]"
  | 'D' => some "[^0-9]"
  | 'w' => some "[A-Za-z0-9_]"
  | 'W' => some "[^A-Za-z0-9_]"
  | 's' => some "[ \t\n\r\x0b\x0c\u00a0\ufeff\u2003\u2029]"
  | 'S' => some "[^ \t\n\r\x0b\x0c\u00a0\ufeff\u2003\u2029]"
  | _ => none

/-- A text with the escapes that stand for ASCII sets replaced. -/
def withAsciiSets : List Char → List Char
  | '\\' :: c :: rest =>
    match asciiSet? c with
    | some set => set.toList ++ withAsciiSets rest
    | none => '\\' :: c :: withAsciiSets rest
  | c :: rest => c :: withAsciiSets rest
  | [] => []

/-- The extended pattern that a text stands for, with at most `fuel` escapes for control characters.
Nothing if the text is no pattern. The bell has no escape of its own. -/
def extendedFrom? : Nat → List Char → Option (List Char)
  | 0, _ => none
  | fuel + 1, text =>
    match Plain.read text with
    | .ok pattern => if pattern.hasBell then none else some (withAsciiSets text)
    | .error .surroundings => some text
    | .error (.control rest) =>
      match rest with
      | letter :: after =>
        if letter.isAlpha then
          let control := Char.ofNat (letter.toNat % 32)
          extendedFrom? fuel (text.take (text.length - rest.length - 2) ++ control :: after)
        else none
      | [] => none
    | .error .malformed => none

def extended? (text : String) : Option (List Char) :=
  extendedFrom? (text.length + 1) text.toList

def isPattern (text : String) : Bool := (extended? text).isSome

def canMatch (text : String) : Bool :=
  match (extended? text).bind Extended.read? with
  | some (pattern, referred) => pattern.hasMatcher referred
  | none => false

end SchemaCatalog.Pattern
