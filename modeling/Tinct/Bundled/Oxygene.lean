import Tinct.Grammar.Definition

/-!
# Oxygene

Object Pascal as extended by the Elements compiler.
-/

namespace Tinct.Bundled.Oxygene

/-- The reserved words. A word may start with a dot. -/
def keywords : KeywordsDef :=
  .table (some "\\.?\\w+") [("keyword",
    "abstract add and array as asc asm aspect assembly async autoreleasepool await begin " ++
    "block break by case cdecl class const constructor continue copy create default delegate " ++
    "deprecated desc destructor distinct div do downto dynamic each else empty end ensure " ++
    "enum equals event except exit extension external false field final finalization finalize " ++
    "finalizer finally flags for forward from function future global goto group has helper if " ++
    "implementation implements implies in index inherited initialization inline interface " ++
    "into invariants is iterator join lazy library lifetimestrategy locked locking loop " ++
    "mapped matching method mod module namespace nested new nil not notify nullable of old on " ++
    "operator optional or order otherwise out overload override packed parallel param params " ++
    "partial pascal pinned platform private procedure property protected public published " ++
    "queryable raise raises read readonly record reference register reintroduce remove repeat " ++
    "require required result reverse safecall sealed select selector self sequence set shl " ++
    "shr skip soft static stdcall step strict strong take then to true try tuple type " ++
    "unconstrained unit unmanaged unretained unsafe until uses using var virtual volatile " ++
    "weak where while with write xor yield")]

def doctag : ModeDef where
  scope := some "doctag"
  matched := some (.source "\\b(?:TODO|FIXME|NOTE|BUG|OPTIMIZE|HACK|XXX):")
  relevance := some 0

def curlyComment : ModeDef where
  scope := some "comment"
  begin := some (.source "\\\x7b")
  finish := some (.source "\\\x7d")
  relevance := some 0
  keywords := some (.table none [])
  contains := [.ref "doctag"]

def parenComment : ModeDef where
  scope := some "comment"
  begin := some (.source "\\(\\*")
  finish := some (.source "\\*\\)")
  relevance := some 10
  keywords := some (.table none [])
  contains := [.ref "doctag"]

def lineComment : ModeDef where
  scope := some "comment"
  begin := some (.source "//")
  finish := some (.source "$")
  keywords := some (.table none [])
  contains := [.ref "doctag"]

/-- A string. Two quotes in a row are a quote in it and not its end. -/
def string : ModeDef where
  scope := some "string"
  begin := some (.source "'")
  finish := some (.source "'")
  keywords := some (.table none [])
  preferContinuation := true
  contains := [.inline { matched := some (.source "''") }]

def charString : ModeDef where
  scope := some "string"
  matched := some (.source "(#\\d+)+")

def number : ModeDef where
  scope := some "number"
  matched := some (.source "\\b\\d+(\\.\\d+)?")
  relevance := some 0

def functionTitle : ModeDef where
  scope := some "title.function"
  matched := some (.source "[a-zA-Z]\\w*")
  relevance := some 0

/-- The parameters of a function, without the brackets. -/
def params : ModeDef where
  scope := some "params"
  begin := some (.source "\\(")
  finish := some (.source "\\)")
  excludeBegin := true
  excludeEnd := true
  keywords := some keywords
  contains := [.ref "string", .ref "char_string"]

def function : ModeDef where
  scope := some "function"
  beginKeywords := some "function constructor destructor procedure method"
  finish := some (.source "[:;]")
  endScope := some "punctuation"
  keywords := some (.words "function constructor|10 destructor|10 procedure|10 method|10")
  contains :=
    [.inline functionTitle, .inline params, .ref "curly_comment", .ref "paren_comment"]

def semicolon : ModeDef where
  scope := some "punctuation"
  matched := some (.source ";")
  relevance := some 0

/-- The grammar of Oxygene. -/
def grammar : GrammarDef where
  name := "Oxygene"
  caseInsensitive := true
  keywords := some keywords
  illegal := some (.source "(\"|\\$[G-Zg-z]|/\\*|</|=>|->)")
  modes :=
    [("doctag", doctag), ("curly_comment", curlyComment), ("paren_comment", parenComment),
      ("line_comment", lineComment), ("string", string), ("char_string", charString),
      ("number", number), ("function", function), ("semicolon", semicolon)]
  contains :=
    [.ref "curly_comment", .ref "paren_comment", .ref "line_comment", .ref "string",
      .ref "char_string", .ref "number", .ref "function", .ref "semicolon"]

end Tinct.Bundled.Oxygene
