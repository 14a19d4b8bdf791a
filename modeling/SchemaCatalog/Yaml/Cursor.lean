namespace SchemaCatalog.Yaml

def isAllowed (c : Char) : Bool :=
  let n := c.toNat
  n == 0x09 || n == 0x0a || n == 0x0d || (0x20 ≤ n && n ≤ 0x7e) || n == 0x85 ||
    (0xa0 ≤ n && n ≤ 0xfffd) || 0x10000 ≤ n

def isBreak (c : Char) : Bool :=
  c == '\n' || c == '\r' || c == '\u0085' || c == '\u2028' || c == '\u2029'

def isBlank (c : Char) : Bool := c == ' ' || c == '\t'

def isNameChar (c : Char) : Bool := c.isAlphanum || c == '_' || c == '-'

def startsWith (test : Char → Bool) : List Char → Bool
  | [] => false
  | c :: _ => test c

def endsWord : List Char → Bool
  | [] => true
  | c :: _ => isBlank c || isBreak c

def endsLine : List Char → Bool
  | [] => true
  | c :: _ => isBreak c

def isDocumentMark : List Char → Bool
  | '-' :: '-' :: '-' :: rest => endsWord rest
  | '.' :: '.' :: '.' :: rest => endsWord rest
  | _ => false

/-- A place in a text: what is left, and the characters, lines and columns before it. -/
structure Cursor where
  rest : List Char
  offset : Nat := 0
  line : Nat := 0
  column : Nat := 0
deriving Repr

namespace Cursor

def advance (cur : Cursor) (count : Nat) : Cursor :=
  { cur with
    rest := cur.rest.drop count
    offset := cur.offset + count
    column := cur.column + count }

def skipWhile (cur : Cursor) (test : Char → Bool) : Cursor :=
  cur.advance (cur.rest.takeWhile test).length

def skipBreak (cur : Cursor) : Cursor :=
  match cur.rest with
  | '\r' :: '\n' :: rest => ⟨rest, cur.offset + 2, cur.line + 1, 0⟩
  | _ :: rest => ⟨rest, cur.offset + 1, cur.line + 1, 0⟩
  | [] => cur

def breakText (cur : Cursor) : List Char :=
  match cur.rest with
  | [] => []
  | c :: _ => if c == '\u2028' || c == '\u2029' then [c] else ['\n']

def atDocumentMark (cur : Cursor) : Bool := cur.column == 0 && isDocumentMark cur.rest

def skipByteOrderMark (cur : Cursor) : Cursor :=
  if cur.column == 0 && startsWith (· == '\ufeff') cur.rest then cur.advance 1 else cur

def skipComment (cur : Cursor) : Cursor :=
  if startsWith (· == '#') cur.rest then cur.skipWhile (fun c => !isBreak c) else cur

end Cursor

/-- Why a text is no YAML document. -/
inductive Fault where
  | forbiddenCharacter
  | unexpectedCharacter
  | expectedColon
  | misplacedEntry
  | misplacedKey
  | misplacedValue
  | badDirective
  | badAnchor
  | badTag
  | badEscape
  | badBlockHeader
  | tabIndentation
  | unclosedQuote
  | colonInFlow
  | unknownHandle
  | unknownAnchor
  | expectedNode
  | expectedEntry
  | expectedKey
  | unclosedFlow
  | severalDocuments
  | keyNotScalar
  | unknownTag
  | badTaggedScalar
  | numberOutOfRange
  | tooDeep
  | tooManyAliases
deriving DecidableEq, Repr, Inhabited

def Fault.message : Fault → String
  | .forbiddenCharacter => "control characters are not allowed"
  | .unexpectedCharacter => "found character that cannot start any token"
  | .expectedColon => "could not find expected ':'"
  | .misplacedEntry => "block sequence entries are not allowed in this context"
  | .misplacedKey => "mapping keys are not allowed in this context"
  | .misplacedValue => "mapping values are not allowed in this context"
  | .badDirective => "malformed directive"
  | .badAnchor => "malformed anchor or alias"
  | .badTag => "malformed tag"
  | .badEscape => "found unknown escape character"
  | .badBlockHeader => "malformed header of a block scalar"
  | .tabIndentation => "found a tab character that violates indentation"
  | .unclosedQuote => "found unexpected end of a quoted scalar"
  | .colonInFlow => "found unexpected ':'"
  | .unknownHandle => "found undefined tag handle"
  | .unknownAnchor => "unknown anchor"
  | .expectedNode => "did not find expected node content"
  | .expectedEntry => "did not find expected '-' indicator"
  | .expectedKey => "did not find expected key"
  | .unclosedFlow => "did not find expected end of a flow collection"
  | .severalDocuments => "more than one document is not supported"
  | .keyNotScalar => "mapping keys have to be scalars"
  | .unknownTag => "unknown tag"
  | .badTaggedScalar => "scalar does not fit its tag"
  | .numberOutOfRange => "integer out of range"
  | .tooDeep => "recursion limit exceeded"
  | .tooManyAliases => "repetition limit exceeded"

end SchemaCatalog.Yaml
