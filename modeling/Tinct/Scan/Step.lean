import Tinct.Scan.State

/-!
# What comes next

At each position three kinds of lexemes are looked for: ends of the innermost region and of those
around it that it ends with, illegal sequences, and begins of the modes the innermost one
contains. The earliest decides; at one position an illegal sequence comes before an end, and an
end before a begin unless the innermost mode prefers to go on.
-/

namespace Tinct.Scan

/-- The next step of a scan. -/
inductive Step where
  /-- A variant of a mode begins. -/
  | begin (mode variant : Nat) (span : Span)
  /-- The region `level` levels below the innermost one ends. -/
  | finish (level : Nat) (span : Span)
  | illegal (position : Nat)
  | done
deriving DecidableEq, Repr

/-- Whether a candidate at `s` comes before the best one so far. -/
def earlier (s : Span) (best : Option Span) : Bool := best.all (s.start < ·.start)

/-- The earliest end among a stack of frames, innermost first, each frame but the last ending
with the next one; and the frames with what they remember now. -/
def findEnd (t : Text) (i : Nat) :
    Nat → Option (Nat × Span) → List Frame → Option (Nat × Span) × List Frame
  | _, best, [] => (best, [])
  | level, best, f :: fs =>
    let (found, cache) := match f.finish with
      | some m => f.endCache.find m t i true
      | none => (none, f.endCache)
    let best := match found with
      | some s => if earlier s (best.map (·.2)) then some (level, s) else best
      | none => best
    let f := { f with endCache := cache }
    if f.mode.flags.endsWithParent then
      let (best, fs) := findEnd t i (level + 1) best fs
      (best, f :: fs)
    else (best, f :: fs)

/-- The variants that may begin in a mode: the number of their mode, their own, and their begin. -/
def candidates (g : Grammar) (m : Mode) : List (Nat × Nat × Matcher) :=
  m.contains.flatMap fun id =>
    (g.mode id).variants.zipIdx.map fun (v, index) => (id, index, v.begin)

/-- The earliest begin among candidates, the first of them at the same position; and what each of
them remembers now. A mode that has begun with an empty match here is looked for further on.
Nothing comes before a begin at position `i` itself. -/
def findBegin (t : Text) (i : Nat) (blocked : Nat → Bool) :
    Option (Nat × Nat × Span) → List (Nat × Nat × Matcher) → List Cache →
      Option (Nat × Nat × Span) × List Cache
  | best, [], caches => (best, caches)
  | best, (id, index, m) :: rest, caches =>
    let (found, cache) := (caches.headD {}).find m t i true
    let (found, cache) :=
      if found = some ⟨i, i⟩ ∧ blocked id then
        if i < t.size then cache.find m t (i + 1) true else (none, cache)
      else (found, cache)
    let best := match found with
      | some s => if earlier s (best.map (·.2.2)) then some (id, index, s) else best
      | none => best
    if best.any (·.2.2.start == i) then (best, cache :: caches.tail)
    else
      let (best, caches) := findBegin t i blocked best rest caches.tail
      (best, cache :: caches)

/-- The earliest illegal sequence of the innermost mode and of the grammar. -/
def findIllegal (g : Grammar) (t : Text) (s : State) : Option Nat × State :=
  let (own, cache) := match s.top.mode.illegal with
    | some m => s.top.illegalCache.find m t s.position false
    | none => (none, s.top.illegalCache)
  let s := { s with top := { s.top with illegalCache := cache } }
  let (general, cache) := match g.illegal with
    | some m =>
      if s.top.mode.isRoot then (none, s.grammarIllegal)
      else s.grammarIllegal.find m t s.position false
    | none => (none, s.grammarIllegal)
  let first := match own, general with
    | some a, some b => some (min a.start b.start)
    | a, b => (a.or b).map (·.start)
  (first, { s with grammarIllegal := cache })

/-- Which of the earliest candidates decides. -/
def choose (preferContinuation : Bool) (finish : Option (Nat × Span)) (illegal : Option Nat)
    (begin : Option (Nat × Nat × Span)) : Step :=
  let stops := illegal.filter fun i =>
    begin.all (i ≤ ·.2.2.start) && finish.all (i ≤ ·.2.start)
  match stops, begin, finish with
  | some i, _, _ => .illegal i
  | none, none, none => .done
  | none, some (id, index, s), none => .begin id index s
  | none, none, some (level, s) => .finish level s
  | none, some (id, index, b), some (level, e) =>
    if e.start < b.start || (e.start == b.start && !preferContinuation) then .finish level e
    else .begin id index b

/-- The next step, and the state with what the searches for it have found. -/
def nextStep (g : Grammar) (t : Text) (s : State) : Step × State :=
  let (finish, frames) := findEnd t s.position 0 none (s.top :: s.below)
  let s := match frames with
    | top :: below => { s with top, below }
    | [] => s
  let (illegal, s) := findIllegal g t s
  let (begin, caches) := findBegin t s.position (s.emptyBegins.contains s.position) none
    (candidates g s.top.mode) s.top.beginCaches
  let s := { s with top := { s.top with beginCaches := caches } }
  (choose s.top.mode.flags.preferContinuation finish illegal begin, s)

end Tinct.Scan
