import Tinct.Pattern.Basic

/-!
# Grammar definitions

A grammar as it is written: the shape of a grammar document, before anything in it is compiled.
A mode contains other modes, in place (`ModeEntry.inline`) or by name (`ModeEntry.ref`).
-/

namespace Tinct

/-- Keywords as they are written: one list of words, or a list for each category. -/
inductive KeywordsDef where
  | words (list : String)
  | table (pattern : Option String) (categories : Entries String)
deriving Repr, Inhabited

/-- An entry of a list of modes: the name of a mode, or a mode. -/
inductive ModeEntry (M : Type) where
  /-- A mode by name; `self` is the mode whose list this is. -/
  | ref (name : String)
  | inline (mode : M)
deriving Repr, Inhabited

/-- Another begin and end for a mode; what it lacks is that of the mode. -/
structure VariantDef where
  begin : Option Pattern := none
  finish : Option Pattern := none
  /-- A begin that ends right after itself. -/
  matched : Option Pattern := none
deriving Repr, Inhabited

/-- A mode as it is written. -/
structure ModeDef where
  scope : Option String := none
  begin : Option Pattern := none
  finish : Option Pattern := none
  /-- A begin that ends right after itself. -/
  matched : Option Pattern := none
  /-- Begins at any of these words. -/
  beginKeywords : Option String := none
  keywords : Option KeywordsDef := none
  relevance : Option Nat := none
  illegal : Option Pattern := none
  contains : List (ModeEntry ModeDef) := []
  variants : List VariantDef := []
  beginScope : Option String := none
  endScope : Option String := none
  excludeBegin : Bool := false
  excludeEnd : Bool := false
  returnEnd : Bool := false
  endsWithParent : Bool := false
  endsParent : Bool := false
  /-- A mode inside may begin where this one could end. -/
  preferContinuation : Bool := false
deriving Inhabited

/-- A grammar as it is written. -/
structure GrammarDef where
  name : String
  aliases : List String := []
  caseInsensitive : Bool := false
  keywords : Option KeywordsDef := none
  illegal : Option Pattern := none
  patterns : Entries Pattern := []
  modes : Entries ModeDef := []
  contains : List (ModeEntry ModeDef) := []
  /-- Scopes and keyword categories that go by another name. -/
  scopeAliases : Entries String := []
deriving Inhabited

end Tinct
