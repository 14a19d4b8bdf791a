import SchemaCatalog.Text.Split

namespace SchemaCatalog.Pattern.Property

def words (lines : List String) : List String := lines.flatMap (Text.splitString ' ')

/-- Properties that a character has or lacks. -/
def flags : List String :=
  words [
    "ahex alpha alphabetic asciihexdigit bidic bidicontrol cased caseignorable",
    "changeswhencasefolded changeswhencasemapped changeswhenlowercased changeswhentitlecased",
    "changeswhenuppercased ci cwcf cwcm cwl cwt cwu dash defaultignorablecodepoint dep",
    "deprecated di dia diacritic ebase ecomp emod emoji emojicomponent emojimodifier",
    "emojimodifierbase emojipresentation epres ext extendedpictographic extender extpict",
    "graphemebase graphemeextend graphemelink grbase grext grlink hex hexdigit hyphen idc",
    "idcompatmathcontinue idcompatmathstart idcontinue ideo ideographic ids idsb",
    "idsbinaryoperator idst idstart idstrinaryoperator idsu idsunaryoperator joinc joincontrol",
    "loe logicalorderexception lower lowercase math mcm modifiercombiningmark nchar",
    "noncharactercodepoint oalpha odi ogrext oidc oids olower omath otheralphabetic",
    "otherdefaultignorablecodepoint othergraphemeextend otheridcontinue otheridstart",
    "otherlowercase othermath otheruppercase oupper patsyn patternsyntax patternwhitespace",
    "patws pcm prependedconcatenationmark qmark quotationmark radical regionalindicator ri sd",
    "sentenceterminal softdotted space sterm term terminalpunctuation uideo unifiedideograph",
    "upper uppercase variationselector vs whitespace wspace xidc xidcontinue xids xidstart"]

/-- General categories, and the three classes that are named like them. -/
def categories : List String :=
  words [
    "any ascii assigned c casedletter cc cf closepunctuation cn cntrl co combiningmark",
    "connectorpunctuation control currencysymbol dashpunctuation decimalnumber digit",
    "enclosingmark finalpunctuation format initialpunctuation l lc letter letternumber",
    "lineseparator ll lm lo lowercaseletter lt lu m mark mathsymbol mc me mn modifierletter",
    "modifiersymbol n nd nl no nonspacingmark number openpunctuation other otherletter",
    "othernumber otherpunctuation othersymbol p paragraphseparator pc pd pe pf pi po privateuse",
    "ps punct punctuation s sc separator sk sm so spaceseparator spacingmark symbol",
    "titlecaseletter unassigned uppercaseletter z zl zp zs"]

/-- Scripts, with their codes. -/
def scripts : List String :=
  words [
    "adlam adlm aghb ahom anatolianhieroglyphs arab arabic armenian armi armn avestan avst bali",
    "balinese bamu bamum bass bassavah batak batk beng bengali bhaiksuki bhks bopo bopomofo",
    "brah brahmi brai braille bugi buginese buhd buhid cakm canadianaboriginal cans cari carian",
    "caucasianalbanian chakma cham cher cherokee chorasmian chrs common copt coptic cpmn cprt",
    "cuneiform cypriot cyprominoan cyrillic cyrl deseret deva devanagari diak divesakuru dogr",
    "dogra dsrt dupl duployan egyp egyptianhieroglyphs elba elbasan elym elymaic ethi ethiopic",
    "gara garay geor georgian glag glagolitic gong gonm goth gothic gran grantha greek grek",
    "gujarati gujr gukh gunjalagondi gurmukhi guru gurungkhema han hang hangul hani",
    "hanifirohingya hano hanunoo hatr hatran hebr hebrew hira hiragana hluw hmng hmnp hung",
    "imperialaramaic inherited inscriptionalpahlavi inscriptionalparthian ital java javanese",
    "kaithi kali kana kannada katakana kawi kayahli khar kharoshthi khitansmallscript khmer",
    "khmr khoj khojki khudawadi kiratrai kits knda krai kthi lana lao laoo latin latn lepc",
    "lepcha limb limbu lina linb lineara linearb lisu lyci lycian lydi lydian mahajani mahj",
    "maka makasar malayalam mand mandaic mani manichaean marc marchen masaramgondi medefaidrin",
    "medf meeteimayek mend mendekikakui merc mero meroiticcursive meroitichieroglyphs miao mlym",
    "modi mong mongolian mro mroo mtei mult multani myanmar mymr nabataean nagm nagmundari nand",
    "nandinagari narb nbat newa newtailue nko nkoo nshu nushu nyiakengpuachuehmong ogam ogham",
    "olchiki olck oldhungarian olditalic oldnortharabian oldpermic oldpersian oldsogdian",
    "oldsoutharabian oldturkic olduyghur olonal onao oriya orkh orya osage osge osma osmanya",
    "ougr pahawhhmong palm palmyrene pauc paucinhau perm phag phagspa phli phlp phnx phoenician",
    "plrd prti psalterpahlavi qaac qaai rejang rjng rohg runic runr samaritan samr sarb saur",
    "saurashtra sgnw sharada shavian shaw shrd sidd siddham signwriting sind sinh sinhala sogd",
    "sogdian sogo sora sorasompeng soyo soyombo sund sundanese sunu sunuwar sylo sylotinagri",
    "syrc syriac tagalog tagb tagbanwa taile taitham taiviet takr takri tale talu tamil taml",
    "tang tangsa tangut tavt telu telugu tfng tglg thaa thaana thai tibetan tibt tifinagh tirh",
    "tirhuta tnsa todhri todr toto tulutigalari tutg ugar ugaritic vai vaii vith vithkuqi",
    "wancho wara warangciti wcho xpeo xsux yezi yezidi yi yiii zanabazarsquare zanb zinh zyyy"]

/-- Versions of the standard that assigned a character. -/
def ages : List String :=
  words [
    "1.1 2.0 2.1 3.0 3.1 3.2 4.0 4.1 5.0 5.1 5.2 6.0 6.1 6.2 6.3 7.0 8.0 9.0 10.0 11.0 12.0",
    "12.1 13.0 14.0 15.0 15.1 16.0 v11 v20 v21 v30 v31 v32 v40 v41 v50 v51 v52 v60 v61 v62 v63",
    "v70 v80 v90 v100 v110 v120 v121 v130 v140 v150 v151 v160"]

def graphemeBreaks : List String :=
  words [
    "cn control cr ex extend l lf lv lvt pp prepend ri regionalindicator sm spacingmark t v zwj"]

def wordBreaks : List String :=
  words [
    "cr dq doublequote ex extendnumlet extend fo format hl hebrewletter ka katakana le aletter",
    "lf mb midnumlet ml midletter mn midnum nl newline nu numeric ri regionalindicator sq",
    "singlequote wsegspace zwj"]

def sentenceBreaks : List String :=
  words [
    "at aterm cl close cr ex extend fo format le oletter lf lo lower nu numeric sc scontinue se",
    "sep sp st sterm up upper"]

/-- The values of the properties that have values, by the names of the property. -/
def valued : List (List String × List String) :=
  [(["gc", "generalcategory"], categories), (["sc", "script"], scripts),
    (["scx", "scriptextensions"], scripts), (["age"], ages),
    (["gcb", "graphemeclusterbreak"], graphemeBreaks), (["wb", "wordbreak"], wordBreaks),
    (["sb", "sentencebreak"], sentenceBreaks)]

/-- A name in its strict spelling. The name `isc` stands for itself, not for `c`. -/
def strict (name : String) : String :=
  let plain (chars : List Char) : String :=
    String.ofList (chars.filter fun c => c.toNat < 128 && !(c == ' ' || c == '_' || c == '-'))
  match name.toList.map Char.toLower with
  | 'i' :: 's' :: rest => if plain rest == "c" then "isc" else plain rest
  | chars => plain chars

/-- A name cut at the first sign that a value follows: `!=`, else `:`, else `=`. -/
def cutAtSign (name : String) : Option (String × String) :=
  let chars := name.toList
  let cutAt (size : Nat) (before : List Char) : Option (String × String) :=
    some (String.ofList before, String.ofList (chars.drop (before.length + size)))
  let differs := beforeDiffers chars
  let upTo (c : Char) : List Char := chars.takeWhile (· != c)
  if differs.length < chars.length then cutAt 2 differs
  else if chars.contains ':' then cutAt 1 (upTo ':')
  else if chars.contains '=' then cutAt 1 (upTo '=')
  else none
where
  /-- The characters before the first `!=`. -/
  beforeDiffers : List Char → List Char
    | '!' :: '=' :: _ => []
    | c :: rest => c :: beforeDiffers rest
    | [] => []

/-- Names that denote many ranges of characters, by about how many bytes the states take that
recognize one of those characters. -/
def heavy : List (Nat × List String) :=
  [(50000, words [
      "alpha alphabetic assigned ebase graphemebase grbase idc idcontinue xidc xidcontinue"]),
    (43000, words [
      "c cn ids idstart l letter other unassigned xids xidstart"]),
    (35000, words ["lo otherletter"]),
    (27000, words [
      "caseignorable changeswhencasefolded changeswhenlowercased changeswhentitlecased",
      "changeswhenuppercased ci cwcf cwl cwt cwu ll lower lowercase lowercaseletter lu upper",
      "uppercase uppercaseletter"]),
    (20000, words ["combiningmark graphemeextend grext m mark mn nonspacingmark"]),
    (14000, words ["dia diacritic othersymbol s so symbol"]),
    (11000, words [
      "cased casedletter common lc mc n number otherpunctuation p po punct punctuation",
      "spacingmark zyyy"]),
    (8000, words [
      "changeswhencasemapped cwcm emoji extendedpictographic extpict math term",
      "terminalpunctuation"]),
    (5000, words [
      "decimalnumber digit emojipresentation epres lm mathsymbol modifierletter nd no",
      "othernumber sentenceterminal sm sterm"]),
    (3500, words [
      "arab arabic closepunctuation ext extender han hani ideo ideographic latin latn",
      "openpunctuation pe ps uideo unifiedideograph"])]

/-- About how many bytes the states take that recognize a character with a property. -/
def weight (name : String) : Nat :=
  let value := match cutAtSign name with
    | some (_, value) => strict value
    | none => strict name
  match heavy.find? fun (_, names) => names.contains value with
  | some (weight, _) => weight
  | none => 1500

def isKnown (name : String) : Bool :=
  match cutAtSign name with
  | none =>
    let name := strict name
    flags.contains name || categories.contains name || scripts.contains name
  | some (name, value) =>
    valued.any fun (names, values) => names.contains (strict name) && values.contains (strict value)

end SchemaCatalog.Pattern.Property
