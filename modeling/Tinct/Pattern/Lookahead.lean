import Tinct.Pattern.Lexeme

/-!
# Trailing lookaheads

A regular expression here knows no lookahead, so the lookaheads at the very end of a source are
taken off it and checked where a match ends. `lowerLookaheads` gives the source without them and
what they look for; every other lookahead, and lookbehind, is refused.
-/

namespace Tinct

/-- What a lookahead looks for. -/
structure FollowSource where
  source : String
  negated : Bool
deriving DecidableEq, Repr

/-- A source without its trailing lookaheads, and these, last first. -/
structure Lowered where
  body : String
  follows : List FollowSource
deriving DecidableEq, Repr

/-- The lookaheads that end just before the element `stop`: what they look for, the positions of
their opening parentheses, and where the rest of the source ends. -/
def trailingFollows (ls : List Lexeme) (pairs : List (Nat × Nat)) :
    Nat → Nat → Except PatternError (List FollowSource × List Nat × Nat)
  | 0, stop => .ok ([], [], stop)
  | fuel + 1, stop =>
    match pairs.find? (·.2 + 1 == stop) with
    | none => .ok ([], [], stop)
    | some (o, c) =>
      let negated? := match (ls[o]?).map (·.kind) with
        | some .lookaheadOpen => some false
        | some .negativeLookaheadOpen => some true
        | _ => none
      match negated? with
      | none => .ok ([], [], stop)
      | some negated =>
        let inner := (ls.take c).drop (o + 1)
        if inner.any (·.kind.isBackreference) then .error .backreferenceInLookahead
        else do
          let (follows, opens, stop) ← trailingFollows ls pairs fuel o
          return (⟨Lexeme.join inner, negated⟩ :: follows, o :: opens, stop)

/-- Refuses lookbehind, and lookahead whose opening parenthesis is not among `opens`. -/
def checkLookaround (opens : List Nat) : Nat → List Lexeme → Except PatternError Unit
  | _, [] => .ok ()
  | i, l :: ls =>
    match l.kind with
    | .lookbehindOpen => .error .lookbehind
    | .lookaheadOpen | .negativeLookaheadOpen =>
      if opens.contains i then checkLookaround opens (i + 1) ls else .error .misplacedLookahead
    | _ => checkLookaround opens (i + 1) ls

/-- Takes the trailing lookaheads off a source. Behind a choice outside every group they would
only belong to its last branch, so there they are refused. -/
def lowerLookaheads (source : String) : Except PatternError Lowered := do
  let ls ← lex source
  let (follows, opens, stop) ← trailingFollows ls (← pairs ls) ls.length ls.length
  checkLookaround opens 0 ls
  let body := ls.take stop
  if !follows.isEmpty && hasOutside .alternate 0 body then throw .lookaheadAfterChoice
  return ⟨Lexeme.join body, follows⟩

end Tinct
