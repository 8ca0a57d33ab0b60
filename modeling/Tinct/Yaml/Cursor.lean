/-!
# Reading positions in YAML

A `Cursor` is what is left of a text and how much of it is behind: characters, lines, and the
characters of the last line. Indentation is a comparison of columns.
-/

namespace Tinct.Yaml

/-- A character that ends a line. -/
def isBreak (c : Char) : Bool :=
  c == '\n' || c == '\r' || c == '\x85' || c == '\u2028' || c == '\u2029'

def isBlank (c : Char) : Bool := c == ' ' || c == '\t'

def isSpace (c : Char) : Bool := isBlank c || isBreak c

/-- A character of a name. -/
def isNameChar (c : Char) : Bool := c.isAlphanum || c == '_' || c == '-'

/-- Whether a word ends in front of `cs`: at a space or at the end of the text. -/
def wordEnds : List Char → Bool
  | [] => true
  | c :: _ => isSpace c

/-- The line breaks among `cs`, each as the character that stands for it. -/
def breaks : List Char → List Char
  | [] => []
  | '\r' :: '\n' :: cs => '\n' :: breaks cs
  | c :: cs =>
    if c == '\u2028' || c == '\u2029' then c :: breaks cs
    else if isBreak c then '\n' :: breaks cs
    else breaks cs

/-- What the space between two words of a scalar stands for: blanks stand for themselves, one line
break for a blank, and more of them for all but the first. -/
def fold (space : List Char) : List Char :=
  match breaks space with
  | [] => space
  | ['\n'] => [' ']
  | '\n' :: more => more
  | all => all

/-- A position in a text. -/
structure Cursor where
  rest : List Char
  index : Nat := 0
  line : Nat := 0
  column : Nat := 0
deriving Repr, Inhabited

namespace Cursor

/-- Passes a character. -/
def skip (c : Cursor) : Cursor :=
  match c.rest with
  | [] => c
  | x :: xs =>
    if isBreak x then { rest := xs, index := c.index + 1, line := c.line + 1, column := 0 }
    else { c with rest := xs, index := c.index + 1, column := c.column + 1 }

/-- Passes `n` characters. -/
def advance : Nat → Cursor → Cursor
  | 0, c => c
  | n + 1, c => advance n c.skip

def skipWhile (p : Char → Bool) (c : Cursor) : Cursor := c.advance (c.rest.takeWhile p).length

/-- The characters up to the first one without `p`, and the position behind them. -/
def takeWhile (p : Char → Bool) (c : Cursor) : List Char × Cursor :=
  (c.rest.takeWhile p, c.skipWhile p)

/-- How many characters the line break at the position has. -/
def breakLength (c : Cursor) : Nat :=
  match c.rest with
  | '\r' :: '\n' :: _ => 2
  | x :: _ => if isBreak x then 1 else 0
  | [] => 0

/-- The line break at the position, if there is one, and the position behind it. -/
def takeBreak (c : Cursor) : List Char × Cursor :=
  (breaks (c.rest.take c.breakLength), c.advance c.breakLength)

/-- Passes a mark for the order of bytes that starts a line. -/
def skipByteOrderMark (c : Cursor) : Cursor :=
  if c.column == 0 && c.rest.head? == some '\ufeff' then c.skip else c

/-- Passes a comment. -/
def skipComment (c : Cursor) : Cursor :=
  match c.rest with
  | '#' :: _ => c.skipWhile (!isBreak ·)
  | _ => c

/-- Whether a line that starts or ends a document stands at the position. -/
def atDocumentMark (c : Cursor) : Bool :=
  c.column == 0 &&
    match c.rest with
    | '-' :: '-' :: '-' :: cs | '.' :: '.' :: '.' :: cs => wordEnds cs
    | _ => false

end Cursor
end Tinct.Yaml
