import Tinct.Render.Ansi
import Tinct.Render.Html
import Tinct.Render.Listing

/-!
# Output formats

An output format has a name, under which a collection of formats knows it.
-/

namespace Tinct.Render

/-- A way to write out the tokens of a text. -/
structure Format where
  name : String
  description : String
  render : Tokenization → String → String

/-- There is no format of this name. -/
structure UnknownFormat where
  name : String
deriving DecidableEq, Repr

def UnknownFormat.message (e : UnknownFormat) : String := "format '" ++ e.name ++ "' not found"

/-- Formats, of which no two have the same name. -/
structure Formats where
  formats : List Format := []

namespace Formats

/-- Adds a format, in place of one of the same name. -/
def register (f : Format) (fs : Formats) : Formats :=
  ⟨f :: fs.formats.filter (·.name != f.name)⟩

def get? (fs : Formats) (name : String) : Option Format := fs.formats.find? (·.name == name)

def has (fs : Formats) (name : String) : Bool := (fs.get? name).isSome

/-- The names of the formats in order. -/
def names (fs : Formats) : List String :=
  (fs.formats.map (·.name)).mergeSort fun a b => decide (a ≤ b)

def render (fs : Formats) (name : String) (t : Tokenization) (source : String) :
    Except UnknownFormat String :=
  match fs.get? name with
  | some f => .ok (f.render t source)
  | none => .error ⟨name⟩

/-- The formats of this library. -/
def standard : Formats :=
  [⟨"html", "Nested <span> markup with hljs- class names", html⟩,
    ⟨"ansi", "ANSI colored terminal output", ansi⟩,
    ⟨"json", "Leaf tokens and relevance as JSON", json⟩,
    ⟨"tokens", "One debug line per leaf token", lines⟩].foldl (fun fs f => fs.register f) {}

end Formats
end Tinct.Render
