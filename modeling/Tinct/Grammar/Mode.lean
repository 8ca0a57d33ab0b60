import Tinct.Grammar.Keywords
import Tinct.Pattern.Compile

/-!
# Compiled grammars

A grammar is a list of modes, each known by its place. Mode 0 is the root: it stands for the text
outside every region, never begins and never ends. `Mode.contains` lists the modes that may begin
inside a mode, which may be the mode itself.
-/

namespace Tinct

/-- How a region of a variant ends. -/
inductive Finish where
  | pattern (p : EndPattern)
  /-- Right after its begin. -/
  | immediate
  /-- Only with a region around it, or with the text. -/
  | unbounded
deriving Repr

/-- A begin of a mode and the end that goes with it. -/
structure Variant where
  begin : Matcher
  finish : Finish
deriving Repr

/-- The yes-or-no settings of a mode. -/
structure ModeFlags where
  /-- The begin lexeme stays outside the region. -/
  excludeBegin : Bool := false
  /-- The end lexeme stays outside the region. -/
  excludeEnd : Bool := false
  /-- The end lexeme is scanned again, outside the region. -/
  returnEnd : Bool := false
  /-- The region ends where one around it does. -/
  endsWithParent : Bool := false
  /-- The region takes the one around it along when it ends. -/
  endsParent : Bool := false
  /-- Where the region could end, a mode inside may begin instead. -/
  preferContinuation : Bool := false
deriving DecidableEq, Repr

namespace ModeFlags

/-- The settings under their names. -/
def named (f : ModeFlags) : List (String × Bool) :=
  [("exclude_begin", f.excludeBegin), ("exclude_end", f.excludeEnd),
    ("return_end", f.returnEnd), ("ends_with_parent", f.endsWithParent),
    ("ends_parent", f.endsParent), ("prefer_continuation", f.preferContinuation)]

/-- The names of the settings that are on. -/
def names (f : ModeFlags) : List String := (f.named.filter (·.2)).map (·.1)

end ModeFlags

/-- A compiled mode. -/
structure Mode where
  id : Nat
  /-- The name under which the grammar lists the mode. -/
  name : Option String
  scope : Option Scope
  beginScope : Option Scope
  endScope : Option Scope
  variants : List Variant
  contains : List Nat
  /-- Keywords of its own, in place of the grammar's. -/
  keywords : Option KeywordTable
  /-- What the first region of the mode adds to the relevance of a text. -/
  relevance : Nat
  illegal : Option Matcher
  flags : ModeFlags
deriving Repr

namespace Mode

/-- The mode of the text outside every region. -/
def root (contains : List Nat) (illegal : Option Matcher) : Mode :=
  ⟨0, none, none, none, none, [], contains, none, 0, illegal, {}⟩

def isRoot (m : Mode) : Bool := m.id == 0

end Mode

/-- The expression for candidates where no table has one. -/
def defaultIdentifier : Regex := .ofExpr "\\w+" (.rep (.set Unicode.word) 1 none true)

/-- A compiled grammar. -/
structure Grammar where
  name : String
  aliases : List String
  caseInsensitive : Bool
  modes : Array Mode
  /-- The keywords of every mode without keywords of its own. -/
  keywords : KeywordTable
deriving Repr

namespace Grammar

def mode (g : Grammar) (id : Nat) : Mode := g.modes.getD id (.root [] none)

def root (g : Grammar) : Mode := g.mode 0

/-- The mode that the grammar lists under a name. -/
def namedMode? (g : Grammar) (name : String) : Option Mode :=
  g.modes.find? (·.name == some name)

/-- What is illegal in every mode. -/
def illegal (g : Grammar) : Option Matcher := g.root.illegal

/-- The keywords in force in a mode, and the expression that picks candidates for them. -/
def effectiveKeywords (g : Grammar) (m : Mode) : KeywordTable × Regex :=
  let table := m.keywords.getD g.keywords
  (table, (table.pattern.or g.keywords.pattern).getD defaultIdentifier)

end Grammar
end Tinct
