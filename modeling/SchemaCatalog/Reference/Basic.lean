import SchemaCatalog.Text.Split

namespace SchemaCatalog

/-- A reference taken apart. An empty document means the one the reference stands in. -/
structure Reference where
  document : String
  pointer : String
deriving DecidableEq, Repr, Inhabited

namespace Reference

def parse (text : String) : Reference :=
  let chars := text.toList
  { document := String.ofList (chars.takeWhile (· != '#'))
    pointer := String.ofList ((chars.dropWhile (· != '#')).drop 1) }

/-- Whether the reference stays in its document. -/
def isLocal (r : Reference) : Bool := r.document.isEmpty

def segments (r : Reference) : List String := Text.splitString '/' r.pointer

/-- Undoes the escapes of a pointer part: `~1` stands for a slash, `~0` for a tilde. -/
def unescapeChars : List Char → List Char
  | [] => []
  | '~' :: '1' :: rest => '/' :: unescapeChars rest
  | '~' :: '0' :: rest => '~' :: unescapeChars rest
  | c :: rest => c :: unescapeChars rest

/-- Escapes a key for use as a pointer part. -/
def escapeChars : List Char → List Char
  | [] => []
  | '/' :: rest => '~' :: '1' :: escapeChars rest
  | '~' :: rest => '~' :: '0' :: escapeChars rest
  | c :: rest => c :: escapeChars rest

def unescape (segment : String) : String := String.ofList (unescapeChars segment.toList)

def escape (key : String) : String := String.ofList (escapeChars key.toList)

/-- The name of the schema referred to: the last pointer part, or, for a whole document, its file
name without extension. -/
def name (r : Reference) : String :=
  match r.segments.getLast? with
  | some last =>
    if last.isEmpty then fileStem r.document else unescape last
  | none => fileStem r.document
where
  /-- The file name up to its first dot. -/
  fileStem (path : String) : String :=
    let file := ((Text.splitString '/' path).getLast?).getD ""
    String.ofList (file.toList.takeWhile (· != '.'))

/-- The id under which the root document is known. -/
def rootDocument : String := "#"

/-- Makes a reference within `document` usable from outside of it. -/
def qualify (reference document : String) : String :=
  let isOpen := reference.toList.head? == some '#'
  if document.isEmpty || document == rootDocument || !isOpen then reference
  else document ++ reference

theorem unescapeChars_escapeChars (key : List Char) : unescapeChars (escapeChars key) = key := by
  fun_induction escapeChars key with
  | case1 => rfl
  | case2 rest ih => simp [unescapeChars, ih]
  | case3 rest ih => simp [unescapeChars, ih]
  | case4 c rest _ htilde ih =>
    rw [unescapeChars.eq_4, ih]
    · exact fun _ h => absurd h (by simpa using htilde)
    · exact fun _ h => absurd h (by simpa using htilde)

end Reference

end SchemaCatalog
