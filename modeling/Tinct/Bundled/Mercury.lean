import Tinct.Grammar.Definition

/-!
# Mercury

The language of the Elements compiler that is compatible with Visual Basic.
-/

namespace Tinct.Bundled.Mercury

/-- The reserved words. -/
def keywords : KeywordsDef :=
  .table none [("keyword",
    "ensure check invariants old require addhandler addressof alias and andalso ansi as " ++
    "ascending assembly async auto autoreleasepool await boolean by byref byte byval call " ++
    "case catch cbool cbyte cchar cdate cdbl cdec char cint class clng cobj const continue " ++
    "csbyte cshort csng cstr ctrytype ctype cuint culng cushort custom decimal declare " ++
    "default delegate descending dim directcast distinct do double dynamic each else elseif " ++
    "end endif enum equals erase error event exit extends false finally for friend from " ++
    "function get gettype getxmlnamespace global gosub goto group handles if implements " ++
    "imports in index inherits integer interface into is isfalse isnot istrue iterator join " ++
    "key lazy let lib like long loop mappedto matching me mid mod module mustinherit " ++
    "mustoverride mybase myclass mymapped namespace narrowing new next not nothing " ++
    "notinheritable notoverridable null object of off on operator option optional or order " ++
    "orelse out overloads overridable overrides paramarray partial preserve private property " ++
    "protected ptr public raiseevent readonly record redim rem removehandler resume return " ++
    "sbyte select set shadows shared short single skip static step stop string structure " ++
    "strict sub synclock take text then throw to true try trycast typeof uinteger ulong " ++
    "unicode unmanaged unsafe until ushort using variant wend when where while widening with " ++
    "withevents writeonly xor yield zip")]

/-- Pieces of dates and times. -/
def patterns : Entries Pattern :=
  [("mm_dd_yyyy", .source "\\d\x7b1,2\x7d/\\d\x7b1,2\x7d/\\d\x7b4\x7d"),
    ("yyyy_mm_dd", .source "\\d\x7b4\x7d-\\d\x7b1,2\x7d-\\d\x7b1,2\x7d"),
    ("time_12h", .source "(\\d|1[012])(:\\d+)\x7b0,2\x7d *(AM|PM)"),
    ("time_24h", .source "\\d\x7b1,2\x7d(:\\d\x7b1,2\x7d)\x7b1,2\x7d"),
    ("date", .either [.source "\x7b\x7byyyy_mm_dd\x7d\x7d", .source "\x7b\x7bmm_dd_yyyy\x7d\x7d"])]

def doctag : ModeDef where
  scope := some "doctag"
  matched := some (.source "\\b(?:TODO|FIXME|NOTE|BUG|OPTIMIZE|HACK|XXX):")
  relevance := some 0

def character : ModeDef where
  scope := some "string"
  matched := some (.source "\"(\"\"|[^\\n])\"C\\b")

/-- A string. Two quotes in a row are a quote in it and not its end. -/
def string : ModeDef where
  scope := some "string"
  begin := some (.source "\"")
  finish := some (.source "\"")
  illegal := some (.source "\\n")
  keywords := some (.table none [])
  preferContinuation := true
  contains := [.inline { matched := some (.source "\"\"") }]

/-- A way to write a date: `content` between hash signs. -/
def dateForm (content : List Pattern) : VariantDef where
  matched := some (.concat ([.source "# *"] ++ content ++ [.source " *#"]))

def date : ModeDef where
  scope := some "literal"
  variants :=
    [dateForm [.source "\x7b\x7bdate\x7d\x7d"],
      dateForm [.source "\x7b\x7btime_24h\x7d\x7d"],
      dateForm [.source "\x7b\x7btime_12h\x7d\x7d"],
      dateForm [.source "\x7b\x7bdate\x7d\x7d", .source " +",
        .either [.source "\x7b\x7btime_12h\x7d\x7d", .source "\x7b\x7btime_24h\x7d\x7d"]]]

/-- A way to write a number. -/
def numberForm (source : String) : VariantDef where
  matched := some (.source source)

def number : ModeDef where
  scope := some "number"
  relevance := some 0
  variants :=
    [numberForm "\\b\\d[\\d_]*((\\.[\\d_]+(E[+-]?[\\d_]+)?)|(E[+-]?[\\d_]+))[RFD@!#]?",
      numberForm "\\b\\d[\\d_]*((U?[SIL])|[%&])?",
      numberForm "&H[\\dA-F_]+((U?[SIL])|[%&])?",
      numberForm "&O[0-7_]+((U?[SIL])|[%&])?",
      numberForm "&B[01_]+((U?[SIL])|[%&])?"]

def label : ModeDef where
  scope := some "label"
  matched := some (.source "^\\w+:")

/-- A tag of the mark-up in a documentation comment. -/
def docElement : ModeDef where
  scope := some "doctag"
  begin := some (.source "</?")
  finish := some (.source ">")

def docComment : ModeDef where
  scope := some "comment"
  begin := some (.source "'''")
  finish := some (.source "$")
  keywords := some (.table none [])
  contains := [.inline docElement, .ref "doctag"]

def comment : ModeDef where
  scope := some "comment"
  finish := some (.source "$")
  keywords := some (.table none [])
  variants :=
    [{ begin := some (.source "'") }, { begin := some (.source "([\\t ]|^)REM(?=\\s)") }]
  contains := [.ref "doctag"]

def directive : ModeDef where
  scope := some "meta"
  begin := some (.source
    "[\\t ]*#(const|disable|else|elseif|enable|end|externalsource|if|region)\\b")
  finish := some (.source "$")
  keywords := some (.table none
    [("keyword", "const disable else elseif enable end externalsource if region then")])
  contains := [.ref "comment"]

/-- The grammar of Mercury. Reserved words of older dialects are illegal. -/
def grammar : GrammarDef where
  name := "Mercury"
  aliases := ["vbmercury"]
  caseInsensitive := true
  keywords := some keywords
  illegal := some (.source "//|\\\x7b|\\\x7d|endif|gosub|variant|wend|^\\$ ")
  patterns := patterns
  modes :=
    [("doctag", doctag), ("character", character), ("string", string), ("date", date),
      ("number", number), ("label", label), ("doc_comment", docComment), ("comment", comment),
      ("directive", directive)]
  contains :=
    [.ref "character", .ref "string", .ref "date", .ref "number", .ref "label",
      .ref "doc_comment", .ref "comment", .ref "directive"]
  scopeAliases := [("label", "symbol")]

end Tinct.Bundled.Mercury
