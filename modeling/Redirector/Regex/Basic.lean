/-!
# Regular expressions

The abstract form of a regular expression as filters use it. Which character a class or a dot stands
for depends on the options in force, so options stay where they were written; nothing here is
resolved.
-/

namespace Redirector

namespace Regex

/-- An option that an expression can switch on or off. -/
inductive Flag where
  | caseInsensitive
  | multiLine
  | dotMatchesNewLine
  | swapGreed
  | unicode
  | crlf
  | ignoreWhitespace
  deriving DecidableEq, Repr

/-- A switch of options: each with whether it is switched on. -/
abbrev Switch := List (Flag × Bool)

/-- A condition on the position that takes up no characters. -/
inductive Look where
  | lineStart
  | lineEnd
  | textStart
  | textEnd
  | wordBoundary
  | notWordBoundary
  | wordStart
  | wordEnd
  | wordStartHalf
  | wordEndHalf
  deriving DecidableEq, Repr

/-- The classes with a letter of their own. -/
inductive Perl where
  | digit
  | space
  | word
  deriving DecidableEq, Repr

/-- The classes of ASCII characters with names in brackets. -/
inductive Posix where
  | alnum
  | alpha
  | ascii
  | blank
  | cntrl
  | digit
  | graph
  | lower
  | print
  | punct
  | space
  | upper
  | word
  | xdigit
  deriving DecidableEq, Repr

/-- A class named by a property. -/
inductive Property.Query where
  | letter (c : Char)
  | name (n : List Char)
  | value (property value : List Char)
  deriving DecidableEq, Repr

/-- How two sets of characters are combined. -/
inductive SetOp where
  | intersection
  | difference
  | symmetricDifference
  deriving DecidableEq, Repr

/-- A character as it is written: whether by the two hexadecimal digits of a byte, which may then
stand for the byte itself. -/
structure Literal where
  char : Char
  isByte : Bool
  deriving DecidableEq, Repr

/-- A set of characters between brackets. -/
inductive CharSet where
  | literal (l : Literal)
  | range (first last : Literal)
  | posix (negated : Bool) (p : Posix)
  | perl (negated : Bool) (p : Perl)
  | property (negated : Bool) (q : Property.Query)
  | bracketed (negated : Bool) (s : CharSet)
  | union (items : List CharSet)
  | op (o : SetOp) (left right : CharSet)
  deriving Repr

end Regex

inductive Regex where
  | empty
  | literal (l : Regex.Literal)
  | dot
  | look (l : Regex.Look)
  | perl (negated : Bool) (p : Regex.Perl)
  | property (negated : Bool) (q : Regex.Property.Query)
  | set (negated : Bool) (s : Regex.CharSet)
  | switch (s : Regex.Switch)
  /-- At least `least` and at most `greatest` times. -/
  | repetition (r : Regex) (least : Nat) (greatest : Option Nat)
  /-- A group, which may capture what it matches or switch options inside. -/
  | group (captures : Bool) (s : Regex.Switch) (r : Regex)
  | concat (rs : List Regex)
  | alternation (rs : List Regex)
  deriving Repr

/-- Takes a text as a regular expression, or says what is wrong with it. Which texts are taken, and
what is said about the others, is up to the library that compiles them. So whatever depends on it
has a check as a parameter, and what is proved of it holds for every check. -/
abbrev Regex.Check := String → Option String

end Redirector

namespace Redirector.Regex.Property

/-! ## Names of character properties

A regular expression can ask for a class of characters by the name of a Unicode property: a yes-no
property, a general category or a script alone, or a property together with one of its values.
Names are compared loosely: case, spaces, hyphens, underscores and a leading `is` do not count.
-/

def binaryNames : List String := [
  "ahex", "alpha", "alphabetic", "asciihexdigit", "bidic", "bidicontrol", "bidim",
  "bidimirrored", "cased", "caseignorable", "changeswhencasefolded", "changeswhencasemapped",
  "changeswhenlowercased", "changeswhentitlecased", "changeswhenuppercased", "ci", "cwcf",
  "cwcm", "cwl", "cwt", "cwu", "dash", "defaultignorablecodepoint", "dep", "deprecated", "di",
  "dia", "diacritic", "ebase", "ecomp", "emod", "emoji", "emojicomponent", "emojimodifier",
  "emojimodifierbase", "emojipresentation", "epres", "ext", "extendedpictographic", "extender",
  "extpict", "graphemebase", "graphemeextend", "graphemelink", "grbase", "grext", "grlink",
  "hex", "hexdigit", "hyphen", "idc", "idcompatmathcontinue", "idcompatmathstart", "idcontinue",
  "ideo", "ideographic", "ids", "idsb", "idsbinaryoperator", "idst", "idstart",
  "idstrinaryoperator", "idsu", "idsunaryoperator", "joinc", "joincontrol", "loe",
  "logicalorderexception", "lower", "lowercase", "math", "mcm", "modifiercombiningmark",
  "nchar", "noncharactercodepoint", "oalpha", "odi", "ogrext", "oidc", "oids", "olower",
  "omath", "otheralphabetic", "otherdefaultignorablecodepoint", "othergraphemeextend",
  "otheridcontinue", "otheridstart", "otherlowercase", "othermath", "otheruppercase", "oupper",
  "patsyn", "patternsyntax", "patternwhitespace", "patws", "pcm", "prependedconcatenationmark",
  "qmark", "quotationmark", "radical", "regionalindicator", "ri", "sd", "sentenceterminal",
  "softdotted", "space", "sterm", "term", "terminalpunctuation", "uideo", "unifiedideograph",
  "upper", "uppercase", "variationselector", "vs", "whitespace", "wspace", "xidc",
  "xidcontinue", "xids", "xidstart"]

def categoryNames : List String := [
  "any", "ascii", "assigned", "c", "casedletter", "cc", "cf", "closepunctuation", "cn", "cntrl",
  "co", "combiningmark", "connectorpunctuation", "control", "currencysymbol", "dashpunctuation",
  "decimalnumber", "digit", "enclosingmark", "finalpunctuation", "format", "initialpunctuation",
  "l", "lc", "letter", "letternumber", "lineseparator", "ll", "lm", "lo", "lowercaseletter",
  "lt", "lu", "m", "mark", "mathsymbol", "mc", "me", "mn", "modifierletter", "modifiersymbol",
  "n", "nd", "nl", "no", "nonspacingmark", "number", "openpunctuation", "other", "otherletter",
  "othernumber", "otherpunctuation", "othersymbol", "p", "paragraphseparator", "pc", "pd", "pe",
  "pf", "pi", "po", "privateuse", "ps", "punct", "punctuation", "s", "sc", "separator", "sk",
  "sm", "so", "spaceseparator", "spacingmark", "symbol", "titlecaseletter", "unassigned",
  "uppercaseletter", "z", "zl", "zp", "zs"]

def scriptNames : List String := [
  "adlam", "adlm", "aghb", "ahom", "anatolianhieroglyphs", "arab", "arabic", "armenian", "armi",
  "armn", "avestan", "avst", "bali", "balinese", "bamu", "bamum", "bass", "bassavah", "batak",
  "batk", "beng", "bengali", "bhaiksuki", "bhks", "bopo", "bopomofo", "brah", "brahmi", "brai",
  "braille", "bugi", "buginese", "buhd", "buhid", "cakm", "canadianaboriginal", "cans", "cari",
  "carian", "caucasianalbanian", "chakma", "cham", "cher", "cherokee", "chorasmian", "chrs",
  "common", "copt", "coptic", "cpmn", "cprt", "cuneiform", "cypriot", "cyprominoan", "cyrillic",
  "cyrl", "deseret", "deva", "devanagari", "diak", "divesakuru", "dogr", "dogra", "dsrt",
  "dupl", "duployan", "egyp", "egyptianhieroglyphs", "elba", "elbasan", "elym", "elymaic",
  "ethi", "ethiopic", "gara", "garay", "geor", "georgian", "glag", "glagolitic", "gong", "gonm",
  "goth", "gothic", "gran", "grantha", "greek", "grek", "gujarati", "gujr", "gukh",
  "gunjalagondi", "gurmukhi", "guru", "gurungkhema", "han", "hang", "hangul", "hani",
  "hanifirohingya", "hano", "hanunoo", "hatr", "hatran", "hebr", "hebrew", "hira", "hiragana",
  "hluw", "hmng", "hmnp", "hung", "imperialaramaic", "inherited", "inscriptionalpahlavi",
  "inscriptionalparthian", "ital", "java", "javanese", "kaithi", "kali", "kana", "kannada",
  "katakana", "kawi", "kayahli", "khar", "kharoshthi", "khitansmallscript", "khmer", "khmr",
  "khoj", "khojki", "khudawadi", "kiratrai", "kits", "knda", "krai", "kthi", "lana", "lao",
  "laoo", "latin", "latn", "lepc", "lepcha", "limb", "limbu", "lina", "linb", "lineara",
  "linearb", "lisu", "lyci", "lycian", "lydi", "lydian", "mahajani", "mahj", "maka", "makasar",
  "malayalam", "mand", "mandaic", "mani", "manichaean", "marc", "marchen", "masaramgondi",
  "medefaidrin", "medf", "meeteimayek", "mend", "mendekikakui", "merc", "mero",
  "meroiticcursive", "meroitichieroglyphs", "miao", "mlym", "modi", "mong", "mongolian", "mro",
  "mroo", "mtei", "mult", "multani", "myanmar", "mymr", "nabataean", "nagm", "nagmundari",
  "nand", "nandinagari", "narb", "nbat", "newa", "newtailue", "nko", "nkoo", "nshu", "nushu",
  "nyiakengpuachuehmong", "ogam", "ogham", "olchiki", "olck", "oldhungarian", "olditalic",
  "oldnortharabian", "oldpermic", "oldpersian", "oldsogdian", "oldsoutharabian", "oldturkic",
  "olduyghur", "olonal", "onao", "oriya", "orkh", "orya", "osage", "osge", "osma", "osmanya",
  "ougr", "pahawhhmong", "palm", "palmyrene", "pauc", "paucinhau", "perm", "phag", "phagspa",
  "phli", "phlp", "phnx", "phoenician", "plrd", "prti", "psalterpahlavi", "qaac", "qaai",
  "rejang", "rjng", "rohg", "runic", "runr", "samaritan", "samr", "sarb", "saur", "saurashtra",
  "sgnw", "sharada", "shavian", "shaw", "shrd", "sidd", "siddham", "signwriting", "sind",
  "sinh", "sinhala", "sogd", "sogdian", "sogo", "sora", "sorasompeng", "soyo", "soyombo",
  "sund", "sundanese", "sunu", "sunuwar", "sylo", "sylotinagri", "syrc", "syriac", "tagalog",
  "tagb", "tagbanwa", "taile", "taitham", "taiviet", "takr", "takri", "tale", "talu", "tamil",
  "taml", "tang", "tangsa", "tangut", "tavt", "telu", "telugu", "tfng", "tglg", "thaa",
  "thaana", "thai", "tibetan", "tibt", "tifinagh", "tirh", "tirhuta", "tnsa", "todhri", "todr",
  "toto", "tulutigalari", "tutg", "ugar", "ugaritic", "vai", "vaii", "vith", "vithkuqi",
  "wancho", "wara", "warangciti", "wcho", "xpeo", "xsux", "yezi", "yezidi", "yi", "yiii",
  "zanabazarsquare", "zanb", "zinh", "zyyy"]

/-- The names of the versions in which characters were introduced. -/
def ageNames : List String := [
  "1.1", "v11", "2.0", "v20", "2.1", "v21", "3.0", "v30", "3.1", "v31", "3.2", "v32", "4.0",
  "v40", "4.1", "v41", "5.0", "v50", "5.1", "v51", "5.2", "v52", "6.0", "v60", "6.1", "v61",
  "6.2", "v62", "6.3", "v63", "7.0", "v70", "8.0", "v80", "9.0", "v90", "10.0", "v100", "11.0",
  "v110", "12.0", "v120", "12.1", "v121", "13.0", "v130", "14.0", "v140", "15.0", "v150",
  "15.1", "v151", "16.0", "v160"]

def graphemeNames : List String := [
  "cn", "control", "cr", "ex", "extend", "l", "lf", "lv", "lvt", "pp", "prepend",
  "regionalindicator", "ri", "sm", "spacingmark", "t", "v", "zwj"]

def sentenceNames : List String := [
  "at", "aterm", "cl", "close", "cr", "ex", "extend", "fo", "format", "le", "lf", "lo", "lower",
  "nu", "numeric", "oletter", "sc", "scontinue", "se", "sep", "sp", "st", "sterm", "up", "upper"]

def wordNames : List String := [
  "aletter", "cr", "doublequote", "dq", "ex", "extend", "extendnumlet", "fo", "format",
  "hebrewletter", "hl", "ka", "katakana", "le", "lf", "mb", "midletter", "midnum", "midnumlet",
  "ml", "mn", "newline", "nl", "nu", "numeric", "regionalindicator", "ri", "singlequote", "sq",
  "wsegspace", "zwj"]

/-- Whether a text starts with `is`, in any case. -/
def startsWithIs : List Char → Bool
  | a :: b :: _ => (a = 'i' || a = 'I') && (b = 's' || b = 'S')
  | _ => false

/-- The loose form of a name. The abbreviation `isc` is a name of its own, not `is` and `c`. -/
def normalize (name : List Char) : String :=
  let dropped := startsWithIs name
  let rest := (if dropped then name.drop 2 else name).filter fun c ↦
    c.toNat < 128 && !(c = ' ' || c = '_' || c = '-')
  let lower := rest.map Char.toLower
  if dropped && lower = ['c'] then "isc" else String.ofList lower

/-- Whether a name alone names a class. -/
def isClassName (name : List Char) : Bool :=
  let n := normalize name
  categoryNames.contains n || scriptNames.contains n || binaryNames.contains n

/-- Whether a property with a value names a class. -/
def isClassValue (property value : List Char) : Bool :=
  let v := normalize value
  match normalize property with
  | "gc" | "generalcategory" => categoryNames.contains v
  | "sc" | "script" => scriptNames.contains v
  | "scx" | "scriptextensions" => scriptNames.contains v
  | "age" => ageNames.contains v
  | "gcb" | "graphemeclusterbreak" => graphemeNames.contains v
  | "sb" | "sentencebreak" => sentenceNames.contains v
  | "wb" | "wordbreak" => wordNames.contains v
  | _ => false

end Redirector.Regex.Property
