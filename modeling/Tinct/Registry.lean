import Tinct.Grammar.Loading
import Tinct.Bundled.Mercury
import Tinct.Bundled.Oxygene
import Tinct.Scan.Run

/-!
# Registries and language detection

A registry holds compiled grammars in the order in which they came, each under its name and its
aliases, capitals or not; no two grammars share one (`Registry.register`). `detect` finds the
grammar that fits a text best: the one with the highest relevance of those that the text is legal
in, and of equal ones the first.
-/

namespace Tinct

namespace Grammar

/-- What a grammar goes by. -/
def keys (g : Grammar) : List String := g.name :: g.aliases

def hasKey (g : Grammar) (key : String) : Bool := g.keys.any (sameName key)

end Grammar

/-- What a candidate makes of a text. -/
structure Score where
  grammar : Grammar
  relevance : Nat
deriving Repr

/-- The result of a detection. -/
structure Detection where
  best : Score
  secondBest : Option Score
  /-- The candidates that the text is legal in, in their order. -/
  scores : List Score
deriving Repr

/-- What the candidates that a text is legal in make of it. -/
def scoresOf (candidates : List Grammar) (text : String) : List Score :=
  candidates.filterMap fun g =>
    match g.tokenize .abort text with
    | .ok t => some ⟨g, t.relevance⟩
    | .error _ => none

/-- Scores by falling relevance; equal ones keep their order. -/
def ranked (scores : List Score) : List Score :=
  scores.mergeSort fun a b => b.relevance ≤ a.relevance

/-- The candidate that fits a text best. -/
def detect (candidates : List Grammar) (text : String) : Option Detection :=
  let scores := scoresOf candidates text
  match ranked scores with
  | [] => none
  | best :: others => some ⟨best, others.head?, scores⟩

/-- Grammars under their names and aliases. -/
structure Registry where
  grammars : List Grammar := []
deriving Repr

namespace Registry

/-- The grammar that goes by a name, upper and lower case being the same. -/
def get? (r : Registry) (name : String) : Option Grammar := r.grammars.find? (·.hasKey name)

/-- Adds a grammar, unless something in the registry goes by one of its names. -/
def register (g : Grammar) (r : Registry) : Except Error Registry :=
  match g.keys.findSome? fun key => (r.get? key).map fun owner => (key, owner.name) with
  | some (key, owner) => .error (.malformed g.name (.taken key owner))
  | none => .ok ⟨r.grammars ++ [g]⟩

/-- Adds the grammar in a file. -/
def loadFile (path : String) (content : Option String) (r : Registry) : Except Error Registry := do
  r.register (← Grammar.loadFile path content)

def size (r : Registry) : Nat := r.grammars.length

def names (r : Registry) : List String := r.grammars.map (·.name)

def detect (r : Registry) (text : String) : Option Detection := Tinct.detect r.grammars text

/-- The definitions of the bundled grammars. -/
def bundledDefs : List GrammarDef := [Bundled.Oxygene.grammar, Bundled.Mercury.grammar]

/-- The registry of the bundled grammars. -/
def bundled : Except Error Registry :=
  bundledDefs.foldlM (fun r d => do r.register (← Grammar.compile d)) {}

end Registry
end Tinct
