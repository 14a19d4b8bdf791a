import SchemaCatalog.Json.Event
import SchemaCatalog.Yaml.Cursor

namespace SchemaCatalog.Yaml

/-- A token. Indentation is expressed by tokens that start and end block collections. -/
inductive Token where
  | versionDirective (major minor : Nat)
  | tagDirective (handle lead : String)
  | documentStart
  | documentEnd
  | blockSequenceStart
  | blockMappingStart
  | blockEnd
  | flowSequenceStart
  | flowSequenceEnd
  | flowMappingStart
  | flowMappingEnd
  | blockEntry
  | flowEntry
  | key
  | value
  | alias (name : String)
  | anchor (name : String)
  | tag (handle suffix : String)
  | scalar (text : String) (plain : Bool)
deriving DecidableEq, Repr, Inhabited

def endsAnchor (text : List Char) : Bool :=
  endsWord text ||
    startsWith (fun c => ['?', ':', ',', ']', '}', '%', '@', '`'].contains c) text

def readAnchor (cur : Cursor) : Except Fault (String × Cursor) :=
  let cur := cur.advance 1
  let name := cur.rest.takeWhile isNameChar
  let cur := cur.advance name.length
  if name.isEmpty || !endsAnchor cur.rest then .error .badAnchor else .ok (String.ofList name, cur)

/-- Whether a character can stand in a tag. Flow indicators only stand in verbatim tags. -/
def isTagChar (verbatim : Bool) (c : Char) : Bool :=
  isNameChar c ||
    ";/?:@&=+$.%!~*'()".toList.contains c || (verbatim && [',', '[', ']'].contains c)

/-- The bytes that percent escapes at the start of a text stand for, and the text after them. -/
def escapedBytes : List Char → Except Fault (List UInt8 × List Char)
  | '%' :: a :: b :: rest =>
    match Json.hexDigit? a, Json.hexDigit? b with
    | some high, some low => do
      let (bytes, rest) ← escapedBytes rest
      return (UInt8.ofNat (16 * high + low) :: bytes, rest)
    | _, _ => .error .badTag
  | '%' :: _ => .error .badTag
  | rest => .ok ([], rest)

/-- The characters of a tag with its escapes resolved. -/
def tagCharacters : Nat → List Char → Except Fault (List Char)
  | 0, _ => .ok []
  | _ + 1, [] => .ok []
  | fuel + 1, '%' :: rest => do
    let (bytes, rest) ← escapedBytes ('%' :: rest)
    match String.fromUTF8? ⟨bytes.toArray⟩ with
    | some text => return text.toList ++ (← tagCharacters fuel rest)
    | none => throw .badTag
  | fuel + 1, c :: rest => do return c :: (← tagCharacters fuel rest)

def readTagText (verbatim : Bool) (cur : Cursor) : Except Fault (List Char × Cursor) := do
  let text := cur.rest.takeWhile (isTagChar verbatim)
  return (← tagCharacters text.length text, cur.advance text.length)

/-- Reads a tag handle from its `!` on: up to a second `!`, if only name characters stand between.
-/
def readHandle (cur : Cursor) : List Char × Cursor :=
  let cur := cur.advance 1
  let name := cur.rest.takeWhile isNameChar
  let cur := cur.advance name.length
  if startsWith (· == '!') cur.rest then ('!' :: name ++ ['!'], cur.advance 1)
  else ('!' :: name, cur)

/-- Reads a tag as handle and suffix. A verbatim tag and the lone `!` have no handle. -/
def readTagParts (cur : Cursor) : Except Fault (List Char × List Char × Cursor) := do
  match cur.rest with
  | '!' :: '<' :: _ =>
    let (suffix, cur) ← readTagText true (cur.advance 2)
    if suffix.isEmpty || !startsWith (· == '>') cur.rest then throw .badTag
    return ([], suffix, cur.advance 1)
  | _ =>
    let (handle, cur) := readHandle cur
    let (text, cur) ← readTagText false cur
    if 2 ≤ handle.length && handle.getLast? == some '!' then
      if text.isEmpty then throw .badTag
      return (handle, text, cur)
    let suffix := handle.drop 1 ++ text
    return if suffix.isEmpty then ([], ['!'], cur) else (['!'], suffix, cur)

def readTag (inFlow : Bool) (cur : Cursor) : Except Fault (Token × Cursor) := do
  let (handle, suffix, cur) ← readTagParts cur
  if endsWord cur.rest || (inFlow && startsWith (· == ',') cur.rest) then
    return (.tag (String.ofList handle) (String.ofList suffix), cur)
  throw .badTag

def readVersionNumber (cur : Cursor) : Except Fault (Nat × Cursor) :=
  let digits := cur.rest.takeWhile Char.isDigit
  if digits.isEmpty || 9 < digits.length then .error .badDirective
  else .ok (digits.foldl (fun n c => 10 * n + (c.toNat - 48)) 0, cur.advance digits.length)

def readVersion (cur : Cursor) : Except Fault (Token × Cursor) := do
  let (major, cur) ← readVersionNumber (cur.skipWhile isBlank)
  if !startsWith (· == '.') cur.rest then throw .badDirective
  let (minor, cur) ← readVersionNumber (cur.advance 1)
  return (.versionDirective major minor, cur)

/-- Reads the rest of a tag directive. -/
def readTagDirective (cur : Cursor) : Except Fault (Token × Cursor) := do
  let cur := cur.skipWhile isBlank
  if !startsWith (· == '!') cur.rest then throw .badDirective
  let (handle, cur) := readHandle cur
  if handle.getLast? != some '!' then throw .badDirective
  if !startsWith isBlank cur.rest then throw .badDirective
  let (lead, cur) ← readTagText true (cur.skipWhile isBlank)
  if lead.isEmpty || !endsWord cur.rest then throw .badDirective
  return (.tagDirective (String.ofList handle) (String.ofList lead), cur)

/-- Reads a directive from its `%` on, with the end of its line. -/
def readDirective (cur : Cursor) : Except Fault (Token × Cursor) := do
  let cur := cur.advance 1
  let name := cur.rest.takeWhile isNameChar
  let cur := cur.advance name.length
  if !endsWord cur.rest then throw .badDirective
  let (token, cur) ← match String.ofList name with
    | "YAML" => readVersion cur
    | "TAG" => readTagDirective cur
    | _ => throw .badDirective
  let cur := (cur.skipWhile isBlank).skipComment
  if !endsLine cur.rest then throw .badDirective
  return (token, cur.skipBreak)

end SchemaCatalog.Yaml
