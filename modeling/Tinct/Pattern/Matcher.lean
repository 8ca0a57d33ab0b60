import Tinct.Regex.Basic

/-!
# Matchers

A matcher is a regular expression with checks on what follows a match. Where the checks refuse
the preferred match, shorter matches from the same position are tried before later positions:

* `Matcher.acceptedEnd?`: the end of the accepted match from a position;
* `Matcher.find?`: the first accepted match from a position on;
* `Matcher.captures`: what the groups of an accepted match hold.
-/

namespace Tinct

/-- A check on the text behind a match: whether a regular expression matches there, or does not.
It sees the text in front too. -/
structure Follow where
  regex : Regex
  negated : Bool
deriving Repr

namespace Follow

def holds (f : Follow) (t : Text) (i : Nat) : Bool := f.regex.matchesAt t i != f.negated

/-- The check as it is written in a source. -/
def toSource (f : Follow) : String :=
  (if f.negated then "(?!" else "(?=") ++ f.regex.source ++ ")"

end Follow

/-- A regular expression and what has to hold where a match ends. -/
structure Matcher where
  regex : Regex
  follows : List Follow
deriving Repr

/-- What a group of a match holds. -/
structure Capture where
  name : Option String
  value : Option String
deriving DecidableEq, Repr

/-- What the groups of a match hold, by number; nothing where there is no match. -/
abbrev Captures := List Capture

namespace Captures

def byIndex? (cs : Captures) (i : Nat) : Option String := (cs[i]?).bind (·.value)

def byName? (cs : Captures) (name : String) : Option String :=
  (cs.find? (·.name == some name)).bind (·.value)

end Captures

namespace Matcher

def source (m : Matcher) : String := m.regex.source

/-- The number of groups, the whole match included. -/
def groupCount (m : Matcher) : Nat := m.regex.groupCount

def followsHold (m : Matcher) (t : Text) (i : Nat) : Bool := m.follows.all (·.holds t i)

/-- The end of the first accepted match from `start`, where `stop` is the end of the preferred
one: `stop` itself, or that of the preferred match that ends before it, and so on. -/
def acceptedEnd? (m : Matcher) (t : Text) (start : Nat) (allowEmpty : Bool) :
    Nat → Nat → Option Nat
  | fuel, stop =>
    if (allowEmpty || start < stop) && m.followsHold t stop then some stop
    else if m.follows.isEmpty || stop ≤ start then none
    else
      match fuel with
      | 0 => none
      | fuel + 1 =>
        (m.regex.endFrom? t (stop - 1) start).bind (m.acceptedEnd? t start allowEmpty fuel)

/-- The first accepted match from `start` on, where at most `fuel` matches are looked at. -/
def findFrom? (m : Matcher) (t : Text) (allowEmpty : Bool) : Nat → Nat → Option Span
  | 0, _ => none
  | fuel + 1, start =>
    match m.regex.find? t start with
    | none => none
    | some s =>
      match m.acceptedEnd? t s.start allowEmpty (s.stop - s.start) s.stop with
      | some stop => some ⟨s.start, stop⟩
      | none => m.findFrom? t allowEmpty fuel (s.start + 1)

/-- The first accepted match that starts at `start` or later. Empty matches count only if
`allowEmpty` is set. Each search starts behind the start of the match before it, so that the fuel
suffices. -/
def find? (m : Matcher) (t : Text) (start : Nat) (allowEmpty : Bool) : Option Span :=
  m.findFrom? t allowEmpty (t.size + 1 - start) start

/-- What the groups hold of the accepted match `s`: those of the preferred match that starts
where `s` does and, where there are checks, ends no later. -/
def captures (m : Matcher) (t : Text) (s : Span) : Captures :=
  let stop := if m.follows.isEmpty then t.size else s.stop
  match m.regex.finishFrom? t stop s.start with
  | none => []
  | some f =>
    m.regex.groupNames.zipIdx.map fun (name, i) =>
      ⟨name, (if i = 0 then some ⟨s.start, f.stop⟩ else f.group? i).map t.extract⟩

end Matcher
end Tinct
