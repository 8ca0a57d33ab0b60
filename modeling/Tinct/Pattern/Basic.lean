import Tinct.Entries
import Tinct.Regex.Basic

/-!
# Patterns

A pattern is the source of a regular expression or a combination of patterns. A source may also
splice a named pattern with `{{name}}`, end in lookaheads, and, where it ends a
region, refer back to what began the region.

* `Pattern`: patterns as they are written;
* `PatternError`: why a pattern cannot be used, with its wording.
-/

namespace Tinct

/-- A pattern as it is written in a grammar. -/
inductive Pattern where
  | source (text : String)
  /-- One operand after another. -/
  | concat (operands : List Pattern)
  /-- Any of the operands. -/
  | either (operands : List Pattern)
  /-- The operand in either case. -/
  | caseless (operand : Pattern)
deriving Repr, Inhabited

/-- Why a pattern cannot be used. -/
inductive PatternError where
  /-- No element of the pattern syntax stands at a byte offset of a source. -/
  | badSyntax (offset : Nat) (source : String)
  | emptyConcat
  | emptyEither
  /-- A named pattern refers to itself by way of the names of a trail. -/
  | cyclicReference (trail : List String) (name : String)
  | unresolvedReference (name : String)
  | unbalancedClose
  | unclosedGroup
  | lookbehind
  | misplacedLookahead
  | backreferenceInLookahead
  | lookaheadAfterChoice
  | backreferenceOutsideEnd (source : String)
  | groupNumberTooLarge (reference : String)
  | groupOutOfRange (source : String) (group : Nat) (beginSource : String) (groups : Nat)
  | groupNotNamed (source : String) (name : String) (beginSource : String)
  | noWords
  | badRegex (source : String)
  | badLookahead (source : String)
  | tooComplex (source : String)
deriving DecidableEq, Repr

namespace PatternError

/-- The wording of a fault; what is wrong inside a regular expression is left to the reader. -/
def message : PatternError → String
  | badSyntax offset source =>
    "invalid pattern syntax at offset " ++ toString offset ++ " in `" ++ source ++ "`"
  | emptyConcat => "`concat` needs at least one operand"
  | emptyEither => "`either` needs at least one operand"
  | cyclicReference trail name =>
    "cyclic pattern reference: " ++ " -> ".intercalate trail ++ " -> " ++ name
  | unresolvedReference name =>
    "unresolved pattern reference `\x7b\x7b" ++ name ++ "\x7d\x7d`"
  | unbalancedClose => "unbalanced `)`"
  | unclosedGroup => "unclosed group"
  | lookbehind => "lookbehind is not supported"
  | misplacedLookahead => "lookahead is only supported at the end of a pattern"
  | backreferenceInLookahead => "backreferences are not supported inside lookahead"
  | lookaheadAfterChoice =>
    "a trailing lookahead cannot follow a top-level alternation; " ++
      "wrap the alternatives in a group"
  | backreferenceOutsideEnd source =>
    "backreferences are only supported in end patterns: `" ++ source ++ "`"
  | groupNumberTooLarge reference => "invalid backreference `" ++ reference ++ "`"
  | groupOutOfRange source group beginSource groups =>
    "end pattern `" ++ source ++ "` references group " ++ toString group ++
      " but begin pattern `" ++ beginSource ++ "` has " ++ toString groups ++ " groups"
  | groupNotNamed source name beginSource =>
    "end pattern `" ++ source ++ "` references group `" ++ name ++ "` which begin pattern `" ++
      beginSource ++ "` does not define"
  | noWords => "`begin_keywords` is empty"
  | badRegex source => "invalid pattern `" ++ source ++ "`: "
  | badLookahead source => "invalid lookahead `" ++ source ++ "`: "
  | tooComplex source =>
    "pattern `" ++ source ++ "` is too complex: compiled size exceeds " ++
      toString Regex.sizeLimit ++ " bytes"

end PatternError
end Tinct
