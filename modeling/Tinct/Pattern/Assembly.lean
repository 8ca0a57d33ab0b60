import Tinct.Pattern.Lexeme

/-!
# Assembling patterns

`assemble` turns a pattern into one source: references are replaced by the patterns they name,
and operands are joined. What is joined stays a unit: a named pattern is put into a group, and so
is an operand whose choice or flags would reach beyond it. Groups of named patterns and of
operands do not record unless they have a name, so the numbered groups of an assembled source are
those of a source that is no operand.
-/

namespace Tinct

/-- The source `s` as a group that does not record. -/
def grouped (s : String) : String := "(?:" ++ s ++ ")"

/-- A source whose groups without a name do not record. -/
def anonymize (source : String) : Except PatternError String := do
  return .ofList ((← lex source).flatMap fun l =>
    if l.kind = .open then ['(', '?', ':'] else l.text)

/-- Whether a source has to become a group before something is put next to it. -/
def needsGrouping (source : String) : Except PatternError Bool := do
  let ls ← lex source
  return hasOutside .alternate 0 ls || hasOutside .flags 0 ls

/-- Whether flags of a source would carry over into what stands behind it. -/
def leaksFlags (source : String) : Except PatternError Bool := do
  return hasOutside .flags 0 (← lex source)

def hasBackreference (source : String) : Except PatternError Bool := do
  return (← lex source).any (·.kind.isBackreference)

/-- Replaces the references among elements by what `resolve` gives for their names. -/
def splice (resolve : String → Except PatternError String) :
    List Lexeme → Except PatternError String
  | [] => .ok ""
  | l :: ls => do
    let text ←
      if l.kind = .reference then (resolve l.name).map grouped else .ok (.ofList l.text)
    return text ++ (← splice resolve ls)

/-- The source `s` as it may stand among other operands. -/
def asOperand (needsGroup : String → Except PatternError Bool) (s : String) :
    Except PatternError String := do
  return if ← needsGroup s then grouped s else s

mutual

/-- The source of a pattern, `resolve` giving those of named patterns. The groups of a source
record only if it is `outermost`, no operand and no named pattern. -/
def assembleWith (resolve : String → Except PatternError String) (outermost : Bool) :
    Pattern → Except PatternError String
  | .source text => do
    let spliced ← splice resolve (← lex text)
    if outermost then return spliced else anonymize spliced
  | .concat operands => do
    if operands.isEmpty then throw .emptyConcat
    return String.join (← assembleOperands resolve needsGrouping operands)
  | .either operands => do
    if operands.isEmpty then throw .emptyEither
    return grouped ("|".intercalate (← assembleOperands resolve leaksFlags operands))
  | .caseless operand => do
    return "(?i:" ++ (← assembleWith resolve outermost operand) ++ ")"

/-- The sources of operands, each as a group where it needs one. -/
def assembleOperands (resolve : String → Except PatternError String)
    (needsGroup : String → Except PatternError Bool) :
    List Pattern → Except PatternError (List String)
  | [] => .ok []
  | p :: ps => do
    let part ← asOperand needsGroup (← assembleWith resolve false p)
    return part :: (← assembleOperands resolve needsGroup ps)

end

/-- The source of the pattern that `name` stands for, reached by way of the names of `trail`.
Each name on a trail is another key of `named`, so no trail is longer than `named`. -/
def resolveName (named : Entries Pattern) :
    Nat → List String → String → Except PatternError String
  | depth, trail, name =>
    if trail.contains name then .error (.cyclicReference trail name)
    else
      match named.get? name, depth with
      | none, _ => .error (.unresolvedReference name)
      | some _, 0 => .error (.cyclicReference trail name)
      | some p, depth + 1 => assembleWith (resolveName named depth (trail ++ [name])) false p

/-- The source of a pattern, its references replaced by the patterns of `named`. -/
def assemble (named : Entries Pattern) (p : Pattern) : Except PatternError String :=
  assembleWith (resolveName named named.length []) true p

end Tinct
