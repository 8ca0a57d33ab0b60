import Tinct.Proofs.Pattern.Fusing

/-!
# The parts of an assembled source

A pattern is assembled into one source. Beside that stand the parts that the source is put together
from: the elements of the sources in the pattern, one by one, and the groups that are put around
named patterns and operands.

* `Part`, `Part.flatten`: parts, and the elements that they are;
* `partsWith`, `partsOf`: the parts of a pattern, which are found as its source is assembled;
* `Part.text`: the characters of parts.
-/

namespace Tinct

/-- A part of an assembled source: an element of one of the sources in it, or a group that was put
around other parts. -/
inductive Part where
  | element (l : Lexeme)
  | group (opener : List Char) (inside : List Part)

namespace Part

mutual

/-- The elements of a part, with the parentheses of groups that were put around others. -/
def elements : Part → List Lexeme
  | .element l => [l]
  | .group opener inside =>
    ⟨.uncapturedOpen, opener⟩ :: (flatten inside ++ [⟨.close, [')']⟩])

def flatten : List Part → List Lexeme
  | [] => []
  | p :: ps => p.elements ++ flatten ps

end

end Part

/-- What opens a group that is put around others, and one in which case does not count. -/
def opener : List Char := ['(', '?', ':']

def caselessOpener : List Char := ['(', '?', 'i', ':']

/-- The element, not recording if it opens a group without a name. -/
def Lexeme.anonymous (l : Lexeme) : Lexeme :=
  if l.kind = .open then ⟨.uncapturedOpen, opener⟩ else l

/-- The part, its own element not recording. -/
def Part.anonymous : Part → Part
  | .element l => .element l.anonymous
  | .group opener inside => .group opener inside

/-- An element as a part; a reference is a group of what it stands for. -/
def splicePart (resolve : String → Except PatternError (List Part)) (l : Lexeme) :
    Except PatternError Part :=
  if l.kind = .reference then (resolve l.name).map (.group opener) else .ok (.element l)

/-- The parts of an operand, as a group where it needs one. -/
def operandParts (needsGroup : String → Except PatternError Bool) (ps : List Part) :
    Except PatternError (List Part) := do
  return if ← needsGroup (Lexeme.join (Part.flatten ps)) then [.group opener ps] else ps

mutual

/-- The parts of a pattern, `resolve` giving those of named patterns. -/
def partsWith (resolve : String → Except PatternError (List Part)) (outermost : Bool) :
    Pattern → Except PatternError (List Part)
  | .source text => do
    let spliced ← (← lex text).mapM (splicePart resolve)
    return if outermost then spliced else spliced.map (·.anonymous)
  | .concat operands => do
    if operands.isEmpty then throw .emptyConcat
    return (← partsOfOperands resolve needsGrouping operands).flatten
  | .either operands => do
    if operands.isEmpty then throw .emptyEither
    return [.group opener
      ([.element ⟨.alternate, ['|']⟩].intercalate (← partsOfOperands resolve leaksFlags operands))]
  | .caseless operand => do
    return [.group caselessOpener (← partsWith resolve outermost operand)]

def partsOfOperands (resolve : String → Except PatternError (List Part))
    (needsGroup : String → Except PatternError Bool) :
    List Pattern → Except PatternError (List (List Part))
  | [] => .ok []
  | p :: ps => do
    let part ← operandParts needsGroup (← partsWith resolve false p)
    return part :: (← partsOfOperands resolve needsGroup ps)

end

/-- The parts of the pattern that `name` stands for, as `resolveName` finds it. -/
def resolveParts (named : Entries Pattern) :
    Nat → List String → String → Except PatternError (List Part)
  | depth, trail, name =>
    if trail.contains name then .error (.cyclicReference trail name)
    else
      match named.get? name, depth with
      | none, _ => .error (.unresolvedReference name)
      | some _, 0 => .error (.cyclicReference trail name)
      | some p, depth + 1 => partsWith (resolveParts named depth (trail ++ [name])) false p

/-- The parts of a pattern, its references being to patterns of `named`. -/
def partsOf (named : Entries Pattern) (p : Pattern) : Except PatternError (List Part) :=
  partsWith (resolveParts named named.length []) true p

namespace Part

theorem flatten_append (ps qs : List Part) : flatten (ps ++ qs) = flatten ps ++ flatten qs := by
  induction ps with
  | nil => rfl
  | cons p ps ih => rw [List.cons_append, flatten, flatten, ih, List.append_assoc]

/-- The characters of parts. -/
def text (ps : List Part) : List Char := (flatten ps).flatMap (·.text)

theorem text_append (ps qs : List Part) : text (ps ++ qs) = text ps ++ text qs := by
  rw [text, flatten_append, List.flatMap_append]
  rfl

theorem text_group (opener : List Char) (inside : List Part) :
    text [.group opener inside] = opener ++ text inside ++ [')'] := by
  simp [text, flatten, elements]

theorem toList_join (ls : List Lexeme) : (Lexeme.join ls).toList = ls.flatMap (·.text) := by
  rw [Lexeme.join, String.toList_ofList]

end Part

end Tinct
