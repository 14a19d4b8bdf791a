import SchemaCatalog.Json.Event
import SchemaCatalog.Text.Split

namespace SchemaCatalog.MetaSchema

/-- A URI or a reference to one. The parts that are absent differ from those that are empty. -/
structure Address where
  scheme : Option String := none
  authority : Option String := none
  path : String := ""
  query : Option String := none
  fragment : Option String := none
deriving DecidableEq, Repr, Inhabited

namespace Address

def isUnreserved (c : Char) : Bool := c.isAlphanum || "-._~".toList.contains c

def isDelimiter (c : Char) : Bool := "!$&'()*+,;=".toList.contains c

def isStepChar (c : Char) : Bool := isUnreserved c || isDelimiter c || c == ':' || c == '@'

def isSpelled (test : Char → Bool) : List Char → Bool
  | '%' :: a :: b :: rest =>
    (Json.hexDigit? a).isSome && (Json.hexDigit? b).isSome && isSpelled test rest
  | c :: rest => c != '%' && test c && isSpelled test rest
  | [] => true

/-- A text with needless escapes undone and the others in upper case. -/
def plainEscapes : List Char → List Char
  | '%' :: a :: b :: rest =>
    match Json.hexDigit? a, Json.hexDigit? b with
    | some high, some low =>
      let c := Char.ofNat (16 * high + low)
      if isUnreserved c then c :: plainEscapes rest
      else '%' :: a.toUpper :: b.toUpper :: plainEscapes rest
    | _, _ => '%' :: plainEscapes (a :: b :: rest)
  | c :: rest => c :: plainEscapes rest
  | [] => []

def lowered : List Char → List Char
  | '%' :: a :: b :: rest => '%' :: a :: b :: lowered rest
  | c :: rest => c.toLower :: lowered rest
  | [] => []

/-- The bytes of a text with its escapes undone. -/
def unescapedBytes : List Char → List UInt8
  | '%' :: a :: b :: rest =>
    match Json.hexDigit? a, Json.hexDigit? b with
    | some high, some low => UInt8.ofNat (16 * high + low) :: unescapedBytes rest
    | _, _ => '%'.toUInt8 :: unescapedBytes (a :: b :: rest)
  | c :: rest => (String.singleton c).toUTF8.toList ++ unescapedBytes rest
  | [] => []

def unescaped? (text : List Char) : Option String :=
  String.fromUTF8? ⟨(unescapedBytes text).toArray⟩

def isByte (text : List Char) : Bool :=
  !text.isEmpty && text.length ≤ 3 && text.all Char.isDigit &&
    (text.head? != some '0' || text.length == 1) &&
    text.foldl (fun n c => 10 * n + (c.toNat - 48)) 0 < 256

def isFourBytes (text : List Char) : Bool :=
  let parts := Text.split '.' text
  parts.length == 4 && parts.all isByte

def isHexGroup (text : List Char) : Bool :=
  !text.isEmpty && text.length ≤ 4 && text.all fun c => (Json.hexDigit? c).isSome

/-- The number of groups between colons; four bytes at the end count as two. Nothing if one is
malformed. -/
def countGroups? (atEnd : Bool) (text : List Char) : Option Nat :=
  if text.isEmpty then some 0
  else
    let parts := Text.split ':' text
    let last := parts.getLast?.getD []
    if parts.all isHexGroup then some parts.length
    else if atEnd && parts.dropLast.all isHexGroup && isFourBytes last then some (parts.length + 1)
    else none

def cutAtGap? : List Char → Option (List Char × List Char)
  | ':' :: ':' :: rest => some ([], rest)
  | c :: rest => (cutAtGap? rest).map fun (before, after) => (c :: before, after)
  | [] => none

/-- Whether a text in brackets is an address of eight groups, of which a run may be left out, or a
future kind of address. -/
def isBracketed (text : List Char) : Bool :=
  match text with
  | 'v' :: rest => isFuture rest
  | 'V' :: rest => isFuture rest
  | text =>
    match cutAtGap? text with
    | none => countGroups? true text == some 8
    | some (before, after) =>
      match countGroups? false before, countGroups? true after with
      | some m, some n => m + n < 8
      | _, _ => false
where
  /-- A version, a point and the address itself. -/
  isFuture (text : List Char) : Bool :=
    let version := text.takeWhile fun c => (Json.hexDigit? c).isSome
    match text.drop version.length with
    | '.' :: c :: rest =>
      !version.isEmpty && (c :: rest).all fun c => isUnreserved c || isDelimiter c || c == ':'
    | _ => false

/-- A host with the number of its service after it; nothing if they are malformed. -/
def host? (text : List Char) : Option (List Char × Option (List Char)) :=
  let service? (rest : List Char) : Option (Option (List Char)) :=
    match rest with
    | [] => some none
    | ':' :: digits => if digits.all Char.isDigit then some (some digits) else none
    | _ => none
  match text with
  | '[' :: rest =>
    let inner := rest.takeWhile (· != ']')
    if inner.length < rest.length && isBracketed inner then
      (service? (rest.drop (inner.length + 1))).map fun service => ('[' :: inner ++ [']'], service)
    else none
  | text =>
    let host := text.takeWhile (· != ':')
    if isSpelled (fun c => isUnreserved c || isDelimiter c) host then
      (service? (text.drop host.length)).map fun service => (host, service)
    else none

/-- The numbers of services that need not be given, by scheme. -/
def defaultService? : String → Option String
  | "http" => some "80"
  | "https" => some "443"
  | "ws" => some "80"
  | "wss" => some "443"
  | "ftp" => some "21"
  | _ => none

/-- An authority in normal form: user, host and service. Nothing if it is malformed. -/
def authority? (scheme : Option String) (text : List Char) : Option String := do
  let user := text.takeWhile (· != '@')
  let (lead, rest) ←
    if user.length == text.length then pure ([], text)
    else if isSpelled (fun c => isUnreserved c || isDelimiter c || c == ':') user then
      pure (plainEscapes user ++ ['@'], text.drop (user.length + 1))
    else failure
  let (host, service) ← host? rest
  let shown := match service with
    | none => []
    | some service =>
      if service.isEmpty || scheme.bind defaultService? == some (String.ofList service) then []
      else ':' :: service
  return String.ofList (lead ++ lowered (plainEscapes host) ++ shown)

def cut (stops : List Char) (text : List Char) : List Char × List Char :=
  (text.takeWhile (!stops.contains ·), text.dropWhile (!stops.contains ·))

/-- Takes off the scheme, in lower case. -/
def cutScheme (text : List Char) : Option String × List Char :=
  let name := text.takeWhile fun c => c.isAlphanum || c == '+' || c == '-' || c == '.'
  match name, text.drop name.length with
  | c :: _, ':' :: rest =>
    if c.isAlpha then (some (String.ofList (name.map Char.toLower)), rest) else (none, text)
  | _, _ => (none, text)

/-- Takes off the authority, in normal form. -/
def cutAuthority? (scheme : Option String) (text : List Char) :
    Option (Option String × List Char) :=
  match text with
  | '/' :: '/' :: rest => do
    let (text, rest) := cut ['/', '?', '#'] rest
    return (some (← authority? scheme text), rest)
  | rest => some (none, rest)

/-- Takes off a part that a character leads in, in normal form. -/
def cutTail? (lead : Char) (stops text : List Char) : Option (Option String × List Char) :=
  match text with
  | c :: rest =>
    if c == lead then
      let (part, rest) := cut stops rest
      if isSpelled (fun c => isStepChar c || c == '/' || c == '?') part then
        some (some (String.ofList (plainEscapes part)), rest)
      else none
    else some (none, text)
  | [] => some (none, [])

/-- Whether a text is a path. Without a scheme and an authority its first step has no colon, which
would end a scheme. -/
def isPath (bare : Bool) (text : List Char) : Bool :=
  isSpelled (fun c => isStepChar c || c == '/') text &&
    (!bare || !(text.takeWhile (· != '/')).contains ':')

/-- Takes an address apart; nothing if it is malformed. -/
def parse? (text : String) : Option Address := do
  let (scheme, rest) := cutScheme text.toList
  let (authority, rest) ← cutAuthority? scheme rest
  let (path, rest) := cut ['?', '#'] rest
  if !isPath (scheme.isNone && authority.isNone) path then failure
  let (query, rest) ← cutTail? '?' ['#'] rest
  let (fragment, _) ← cutTail? '#' [] rest
  return { scheme := scheme, authority := authority, query := query, fragment := fragment
           path := String.ofList (plainEscapes path) }

/-- The steps of a path with `.` and `..` carried out. -/
def foldDots : List String → List String → List String
  | [], done => done.reverse
  | ["."], done => ("" :: done).reverse
  | [".."], done => ("" :: done.drop 1).reverse
  | "." :: rest, done => foldDots rest done
  | ".." :: rest, done => foldDots rest (done.drop 1)
  | step :: rest, done => foldDots rest (step :: done)

/-- A path with `.` and `..` carried out. -/
def plainPath (path : String) : String :=
  match Text.splitString '/' path with
  | [""] => ""
  | "" :: steps => "/" ++ "/".intercalate (foldDots steps [])
  | steps => "/".intercalate (foldDots steps [])

def mergedPath (base : Address) (path : String) : String :=
  if base.authority.isSome && base.path.isEmpty then "/" ++ path
  else "/".intercalate ((Text.splitString '/' base.path).dropLast ++ [path])

def startsAtTop (path : String) : Bool := path.toList.head? == some '/'

/-- Whether nothing can be said relative to an address, as its path is no path of steps. -/
def isOpaque (base : Address) : Bool := base.authority.isNone && !startsAtTop base.path

/-- The address that a reference means at a base without fragment. -/
def resolved (base reference : Address) : Address :=
  if reference.scheme.isSome then { reference with path := plainPath reference.path }
  else if reference.authority.isSome then
    { reference with scheme := base.scheme, path := plainPath reference.path }
  else if reference.path.isEmpty then
    { base with query := reference.query.or base.query, fragment := reference.fragment }
  else
    let path :=
      if startsAtTop reference.path then reference.path else mergedPath base reference.path
    { reference with
      scheme := base.scheme, authority := base.authority, path := plainPath path }

def isOnlyFragment (reference : Address) : Bool :=
  reference.scheme.isNone && reference.authority.isNone && reference.path.isEmpty &&
    reference.query.isNone

/-- The address that the text of a reference means at a base. A base with a fragment only has the
reference to that fragment. -/
def resolve? (base : Address) (text : String) : Option Address := do
  let fragment := String.ofList (text.toList.drop 1)
  if text.toList.head? == some '#' && base.fragment == some fragment then return base
  let reference ← parse? text
  if base.fragment.isSome then failure
  if base.isOpaque && reference.scheme.isNone && !reference.isOnlyFragment then failure
  return base.resolved reference

def document (address : Address) : Address := { address with fragment := none }

/-- The address of a schema that has none. -/
def unnamed : Address := { scheme := some "json-schema", authority := some "", path := "/" }

end Address

end SchemaCatalog.MetaSchema
