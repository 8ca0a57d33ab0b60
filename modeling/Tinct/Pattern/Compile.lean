import Tinct.Pattern.Assembly
import Tinct.Pattern.EndTemplate
import Tinct.Pattern.Lookahead

/-!
# Compiling patterns

From patterns to what the scanner runs, with the named patterns and the case rule of a grammar:

* `PatternScope.matcher`: the matcher of a pattern that begins a region or is illegal;
* `PatternScope.endPattern`: that of a pattern that ends a region, checked against its begin;
* `PatternScope.words`: the matcher of a list of whole words.
-/

namespace Tinct

/-- What a grammar gives its patterns: the patterns they may name, and whether case counts. -/
structure PatternScope where
  named : Entries Pattern
  ignoreCase : Bool

/-- How a region ends at its own end: the same for every region, or depending on its begin. -/
inductive EndPattern where
  | static (m : Matcher)
  | template (e : EndTemplate)
deriving Repr

namespace PatternScope

/-- A check of a matcher. What is too large to be one is reported as ill formed. -/
def follow (p : PatternScope) (f : FollowSource) : Except PatternError Follow :=
  match Regex.compile f.source p.ignoreCase with
  | .ok r => .ok ⟨r, f.negated⟩
  | .error _ => .error (.badLookahead f.source)

/-- The matcher of an assembled source. -/
def finish (p : PatternScope) (source : String) : Except PatternError Matcher := do
  let lowered ← lowerLookaheads source
  let regex ← compileRegex lowered.body p.ignoreCase
  return ⟨regex, ← lowered.follows.mapM p.follow⟩

/-- The matcher of a pattern that cannot refer back. -/
def matcher (p : PatternScope) (pattern : Pattern) : Except PatternError Matcher := do
  let source ← assemble p.named pattern
  if ← hasBackreference source then throw (.backreferenceOutsideEnd source)
  p.finish source

/-- Refuses a reference to a group that the begin matcher lacks. -/
def checkPiece (source : String) (begin : Matcher) : TemplatePiece → Except PatternError Unit
  | .group i =>
    if begin.groupCount ≤ i then
      .error (.groupOutOfRange source i begin.source (begin.groupCount - 1))
    else .ok ()
  | .named name =>
    if begin.regex.groupNames.contains (some name) then .ok ()
    else .error (.groupNotNamed source name begin.source)
  | .text _ => .ok ()

/-- The end pattern of a region that `begin` begins. One that refers back has to make a matcher
where its groups are empty. -/
def endPattern (p : PatternScope) (pattern : Pattern) (begin : Matcher) :
    Except PatternError EndPattern := do
  let source ← assemble p.named pattern
  if !(← hasBackreference source) then return .static (← p.finish source)
  let lowered ← lowerLookaheads source
  let pieces ← templatePieces lowered.body
  pieces.forM (checkPiece source begin)
  let template : EndTemplate := ⟨pieces, ← lowered.follows.mapM p.follow, p.ignoreCase⟩
  let _ ← template.instantiate []
  return .template template

/-- Any of the words as a whole word with no dot behind it. -/
def words (p : PatternScope) (ws : List String) : Except PatternError Matcher := do
  if ws.isEmpty then throw .noWords
  let regex ← compileRegex ("\\b(?:" ++ "|".intercalate (ws.map escape) ++ ")\\b") p.ignoreCase
  return ⟨regex, [← p.follow ⟨"\\.", true⟩]⟩

/-- The expression that picks the candidates for keywords out of a text. -/
def identifier (p : PatternScope) (source : String) : Except PatternError Regex :=
  compileRegex source p.ignoreCase

end PatternScope
end Tinct
