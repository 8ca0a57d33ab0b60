import Tinct.Token

/-!
# Coloured text for terminals

The first segment of a token's scope gives its colour, and comments are slanted.
-/

namespace Tinct.Render

inductive Color where
  | magenta
  | green
  | cyan
  | darkGrey
  | yellow
  | darkYellow
  | red
deriving DecidableEq, Repr

namespace Color

def name : Color → String
  | magenta => "Magenta"
  | green => "Green"
  | cyan => "Cyan"
  | darkGrey => "DarkGrey"
  | yellow => "Yellow"
  | darkYellow => "DarkYellow"
  | red => "Red"

/-- The number of a colour among those of a terminal. -/
def code : Color → Nat
  | darkYellow => 3
  | darkGrey => 8
  | red => 9
  | green => 10
  | yellow => 11
  | magenta => 13
  | cyan => 14

/-- The colours of the scopes that have one. -/
def ofScopes : List (String × Color) :=
  [("keyword", magenta), ("built_in", magenta), ("type", magenta), ("string", green),
    ("regexp", green), ("number", cyan), ("literal", cyan), ("comment", darkGrey),
    ("doctag", darkGrey), ("title", yellow), ("section", yellow), ("meta", darkYellow),
    ("symbol", red), ("variable", red)]

/-- The colour of a scope whose first segment is `root`. -/
def ofRoot? (root : String) : Option Color := ofScopes.lookup root

end Color

/-- The control sequence with the given parameters. -/
def control (parameters : String) : String := "\x1b[" ++ parameters ++ "m"

def colored (c : Color) (text : String) : String :=
  control ("38;5;" ++ toString c.code) ++ text ++ control "39"

/-- A text in a colour and slanted. -/
def slanted (c : Color) (text : String) : String :=
  control ("38;5;" ++ toString c.code) ++ control "3" ++ text ++ control "0"

def tokenAnsi (source : String) (t : Token) : String :=
  let text := t.text source
  match t.scope with
  | none => text
  | some scope =>
    match Color.ofRoot? scope.root with
    | none => text
    | some c => if scope.root == "comment" then slanted c text else colored c text

def ansi (t : Tokenization) (source : String) : String :=
  String.join (t.tokens.map (tokenAnsi source))

end Tinct.Render
