import Tinct.Pattern.Lexeme
import Tinct.Pattern.Matcher
import Tinct.Text.Quoted

/-!
# End patterns with backreferences

An end pattern may refer back to what began its region. Such a pattern is kept in pieces, and
each region that begins makes a matcher of its own from it:

* `templatePieces`: the pieces of a source;
* `EndTemplate.instantiate`: the matcher for what a region began with, inserted literally.
-/

namespace Tinct

/-- A piece of an end pattern: text of its source, or a reference to a group of the begin match. -/
inductive TemplatePiece where
  | text (source : String)
  | group (index : Nat)
  | named (name : String)
deriving DecidableEq, Repr

/-- The greatest number of a group plus one. -/
def groupNumberLimit : Nat := Nat.pow 2 64

/-- The number of a numbered backreference. -/
def groupNumber? (l : Lexeme) : Except PatternError Nat :=
  let n := (l.text.drop 1).foldl (fun n d => n * 10 + (d.toNat - 48)) 0
  if n < groupNumberLimit then .ok n else .error (.groupNumberTooLarge (.ofList l.text))

/-- The text `cs`, if there is any, in front of pieces. -/
def consText (cs : List Char) (ps : List TemplatePiece) : List TemplatePiece :=
  if cs.isEmpty then ps else .text (.ofList cs) :: ps

/-- The pieces of elements, `before` being the text since the last reference. -/
def piecesFrom (before : List Char) : List Lexeme → Except PatternError (List TemplatePiece)
  | [] => .ok (consText before [])
  | l :: ls =>
    match l.kind with
    | .backref => do
      let n ← groupNumber? l
      return consText before (.group n :: (← piecesFrom [] ls))
    | .namedBackref => do
      return consText before (.named l.name :: (← piecesFrom [] ls))
    | _ => piecesFrom (before ++ l.text) ls

/-- The pieces of an end pattern. -/
def templatePieces (source : String) : Except PatternError (List TemplatePiece) := do
  piecesFrom [] (← lex source)

/-- A regular expression as a pattern uses it. -/
def compileRegex (source : String) (ignoreCase : Bool) : Except PatternError Regex :=
  match Regex.compile source ignoreCase with
  | .ok r => .ok r
  | .error .illFormed => .error (.badRegex source)
  | .error .tooLarge => .error (.tooComplex source)

/-- An end pattern that refers back to its begin match. -/
structure EndTemplate where
  pieces : List TemplatePiece
  follows : List Follow
  ignoreCase : Bool
deriving Repr

namespace TemplatePiece

/-- The source that a piece becomes; a group that took no part becomes nothing. -/
def toSource (captures : Captures) : TemplatePiece → String
  | .text source => source
  | .group i => escape ((captures.byIndex? i).getD "")
  | .named name => escape ((captures.byName? name).getD "")

/-- The piece as it is listed. -/
def listing : TemplatePiece → String
  | .text source => "Text(" ++ quoted source ++ ")"
  | .group i => "Group(" ++ toString i ++ ")"
  | .named name => "Named(" ++ quoted name ++ ")"

end TemplatePiece

namespace EndTemplate

/-- The source for one region. -/
def sourceFor (e : EndTemplate) (captures : Captures) : String :=
  String.join (e.pieces.map (·.toSource captures))

/-- The matcher for one region. -/
def instantiate (e : EndTemplate) (captures : Captures) : Except PatternError Matcher := do
  return ⟨← compileRegex (e.sourceFor captures) e.ignoreCase, e.follows⟩

/-- All parts of a template in one line. -/
def listing (e : EndTemplate) : String :=
  "EndTemplate \x7b pieces: [" ++ ", ".intercalate (e.pieces.map (·.listing)) ++
    "], follows: [" ++ ", ".intercalate (e.follows.map (·.toSource)) ++
    "], case_insensitive: " ++ toString e.ignoreCase ++
    ", size_limit: " ++ toString Regex.sizeLimit ++ " \x7d"

end EndTemplate
end Tinct
