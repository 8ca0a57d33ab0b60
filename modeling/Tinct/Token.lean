import Tinct.Text
import Tinct.Text.Words

/-!
# Tokens and events

What a scan reports. Leaf tokens carry the text; between them, each region that a mode covers
enters and exits, so that the tokens of a region stand between its two events:

* `Scope`: what a piece of text is, such as `keyword` or `title.function`;
* `Token`, `Event`: the leaves, and the leaves with the regions around them;
* `Tokenization`: the result of a scan, with its views `tokens`, `regions` and `reconstruct`.

Offsets count bytes of the UTF-8 form of the text.
-/

namespace Tinct

/-- What a piece of text is: a name of segments with dots between. -/
structure Scope where
  name : String
deriving DecidableEq, Repr, Inhabited

namespace Scope

def segments (s : Scope) : List String := splitDots s.name

/-- The first segment: `title` for `title.function`. -/
def root (s : Scope) : String := s.segments.headD ""

end Scope

/-- What makes a leaf token. -/
inductive TokenKind where
  /-- Plain text of the mode it stands in. -/
  | text
  /-- A word that a keyword table knows. -/
  | keyword
  /-- What begins or ends a region, under a scope of its own. -/
  | delimiter
deriving DecidableEq, Repr, Inhabited

/-- A piece of the text and what it is. -/
structure Token where
  span : Span
  scope : Option Scope
  kind : TokenKind
deriving DecidableEq, Repr, Inhabited

namespace Token

def text (t : Token) (source : String) : String := slice source t.span

def scopeName (t : Token) : Option String := t.scope.map (·.name)

end Token

/-- Why a region ended. -/
inductive Closure where
  /-- Its own end matched, or it ends right after its begin. -/
  | matched
  /-- The end of a region around it matched. -/
  | withParent
  /-- A region inside it closed and took it along. -/
  | byChild
  /-- The text ran out. -/
  | endOfInput
  /-- The scan stopped at an illegal sequence. -/
  | illegal
deriving DecidableEq, Repr, Inhabited

/-- A step of a scan as it is reported; modes are given by number. -/
inductive Event where
  | enter (mode : Nat) (scope : Option Scope) (offset : Nat)
  | token (t : Token)
  | exit (mode : Nat) (scope : Option Scope) (span : Span) (closure : Closure)
deriving DecidableEq, Repr, Inhabited

namespace Event

/-- The event at other offsets. -/
def mapOffsets (f : Nat → Nat) : Event → Event
  | enter mode scope offset => enter mode scope (f offset)
  | token t => token { t with span := t.span.map f }
  | exit mode scope span closure => exit mode scope (span.map f) closure

end Event

/-- A region that has closed. -/
structure Region where
  mode : Nat
  scope : Option Scope
  span : Span
  closure : Closure
deriving DecidableEq, Repr, Inhabited

namespace Region

def scopeName (r : Region) : Option String := r.scope.map (·.name)

end Region

/-- The result of a scan. -/
structure Tokenization where
  events : List Event
  /-- How much the text looks like the grammar. -/
  relevance : Nat
  /-- The offset of the illegal sequence that stopped the scan. -/
  illegal : Option Nat
deriving DecidableEq, Repr, Inhabited

namespace Tokenization

/-- The leaf tokens in text order. -/
def tokens (t : Tokenization) : List Token :=
  t.events.filterMap fun
    | .token t => some t
    | _ => none

/-- The regions in the order in which they closed. -/
def regions (t : Tokenization) : List Region :=
  t.events.filterMap fun
    | .exit mode scope span closure => some ⟨mode, scope, span, closure⟩
    | _ => none

/-- The texts of the leaf tokens, one after another. -/
def reconstruct (t : Tokenization) (source : String) : String :=
  String.join (t.tokens.map (·.text source))

end Tokenization
end Tinct
