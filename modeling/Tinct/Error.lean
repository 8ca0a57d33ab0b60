import Tinct.Grammar.Keywords
import Tinct.Pattern.Basic

/-!
# Errors

What can go wrong, by cause, with the wording of each: `GrammarFault` for a grammar definition
that cannot be used, and `Error` for all that an operation can fail with.
-/

namespace Tinct

/-- Why a grammar definition cannot be used; `mode` names the mode in question. -/
inductive GrammarFault where
  | noName
  | pattern (e : PatternError)
  | keyword (e : KeywordError)
  | manyBegins (mode : String)
  | matchWithEnd (mode : String)
  | noBegin (mode : String)
  | variantManyBegins (mode : String)
  | variantNoBegin (mode : String)
  | unknownMode (name : String)
  | selfOutsideMode
  | uncompiledMode (id : Nat)
  /-- An end pattern cannot be made for what its region began with. -/
  | endPattern (e : PatternError)
  /-- A name or alias is in use. -/
  | taken (key : String) (owner : String)
deriving DecidableEq, Repr

namespace GrammarFault

def message : GrammarFault → String
  | noName => "grammar has no name"
  | pattern e => e.message
  | keyword e => e.message
  | manyBegins mode =>
    mode ++ " declares more than one of `begin`, `match` and `begin_keywords`"
  | matchWithEnd mode => mode ++ ": `match` cannot be combined with `end`"
  | noBegin mode => mode ++ " has neither a begin pattern nor a scope"
  | variantManyBegins mode => mode ++ ": a variant cannot declare both `begin` and `match`"
  | variantNoBegin mode =>
    mode ++ ": variant has no begin pattern and the mode declares none"
  | unknownMode name => "unknown mode reference `" ++ name ++ "`"
  | selfOutsideMode => "`ref: self` is only valid inside a mode"
  | uncompiledMode id => "mode #" ++ toString id ++ " was never compiled"
  | endPattern e => "end pattern could not be instantiated: " ++ e.message
  | taken key owner => "`" ++ key ++ "` is already registered by `" ++ owner ++ "`"

end GrammarFault

/-- The kinds of documents and files that can fail to be read. -/
inductive InputKind where
  | file
  | yaml
  | json
deriving DecidableEq, Repr

/-- What an operation can fail with. -/
inductive Error where
  /-- A grammar cannot be used. -/
  | malformed (grammar : String) (fault : GrammarFault)
  /-- An illegal sequence stopped a scan. -/
  | illegalSequence (grammar : String) (offset : Nat)
  /-- A file or document cannot be read. -/
  | unreadable (input : InputKind)
deriving DecidableEq, Repr

namespace Error

/-- The wording of an error; what is wrong inside a file or document is left to the reader. -/
def message : Error → String
  | malformed grammar fault => "malformed grammar `" ++ grammar ++ "`: " ++ fault.message
  | illegalSequence grammar offset =>
    "illegal sequence for grammar `" ++ grammar ++ "` at offset " ++ toString offset
  | unreadable .file => "IO error: "
  | unreadable .yaml => "YAML error: "
  | unreadable .json => "JSON error: "

end Error
end Tinct
