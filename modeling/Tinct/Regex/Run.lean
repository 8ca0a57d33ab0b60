import Tinct.Regex.Program
import Tinct.Text
import Tinct.Unicode.Word

/-!
# Matching

A match is searched for by threads that walk through a program in step, a character at a time. The
threads stand in order of preference, and each node carries one thread at most: of two ways to come
to a node at one position, what follows is the same, so the less preferred one is dropped.

Assertions can be asked at two times, and the preferred match is the same (`Regex.endFrom?_eq`):

* at once (`Timing.eager`): a thread passes an assertion when it comes to it;
* late (`Timing.late`): an assertion about what follows waits until the next character is looked
  at. If one then holds, the threads set out once more from where they wait.

A late search does not get past characters beyond ASCII if the program asks where words begin and
end by all of Unicode. It then gives up, and the eager one answers.

* `Look.holds`: when an assertion holds, which depends on the whole text;
* `Program.spread`: the threads that a list of threads becomes before the next character is read;
* `Program.runFrom`: the end of the preferred match from a position, inside a window of the text.
-/

namespace Tinct.Regex

/-- Whether `c` is a word character. -/
def isWord (ascii : Bool) (c : Char) : Bool :=
  if ascii || c.toNat < 0x80 then c.isAlphanum || c == '_' else Unicode.word.contains c

namespace Look

/-- Whether the assertion holds at a position of `t`. -/
def holds (t : Text) (i : Nat) : Look → Bool
  | .textStart => i == 0
  | .textEnd => i == t.size
  | .lineStart => i == 0 || t.before? i == some '\n'
  | .lineEnd => i == t.size || t.after? i == some '\n'
  | .anyLineStart =>
    i == 0 || t.before? i == some '\n' || (t.before? i == some '\r' && t.after? i != some '\n')
  | .anyLineEnd =>
    i == t.size || t.after? i == some '\r' || (t.after? i == some '\n' && t.before? i != some '\r')
  | .wordBoundary ascii => (t.before? i).any (isWord ascii) != (t.after? i).any (isWord ascii)
  | .notWordBoundary ascii => (t.before? i).any (isWord ascii) == (t.after? i).any (isWord ascii)
  | .wordStart ascii => !(t.before? i).any (isWord ascii) && (t.after? i).any (isWord ascii)
  | .wordEnd ascii => (t.before? i).any (isWord ascii) && !(t.after? i).any (isWord ascii)
  | .wordStartHalf ascii => !(t.before? i).any (isWord ascii)
  | .wordEndHalf ascii => !(t.after? i).any (isWord ascii)

/-- Whether the text in front of a position suffices to tell that the assertion holds there. -/
def holdsBehind (t : Text) (i : Nat) : Look → Bool
  | .textStart => i == 0
  | .lineStart | .anyLineStart => i == 0 || t.before? i == some '\n'
  | .wordStartHalf ascii => !(t.before? i).any (isWord ascii)
  | _ => false

end Look

/-- When assertions about what follows are asked. -/
inductive Timing where
  | eager
  | late
deriving DecidableEq, Repr

/-- A set of nodes, as a mark for each node of a program. -/
structure NodeSet where
  marks : Array Bool
deriving DecidableEq, Repr, Inhabited

namespace NodeSet

/-- The set of none of `n` nodes. -/
def none (n : Nat) : NodeSet := ⟨.replicate n false⟩

def contains (s : NodeSet) (i : Nat) : Bool := s.marks.getD i false

def insert : NodeSet → Nat → NodeSet
  | ⟨marks⟩, i => ⟨marks.setIfInBounds i true⟩

end NodeSet

/-- One way through a program: the node it has come to, and the positions it has recorded, each
under its slot, last first. -/
structure Thread where
  node : Nat
  trail : List (Nat × Nat) := []
deriving DecidableEq, Repr, Inhabited

/-- The part of a text in which a match may lie; assertions see all of the text. -/
structure Window where
  text : Text
  stop : Nat

/-- How far a match has come: its end, and what it has recorded on the way. -/
structure Finish where
  stop : Nat
  trail : List (Nat × Nat)
deriving DecidableEq, Repr, Inhabited

/-- What a group has matched. -/
def Finish.group? (f : Finish) (i : Nat) : Option Span := do
  return ⟨← f.trail.lookup (startSlot i), ← f.trail.lookup (stopSlot i)⟩

namespace Program

/-- The threads that the threads in `waiting` become at the position `here` before a character is
read, in order, where `passes` tells which assertions let a thread through. The nodes in `seen`
have been visited. A thread also stays at the forks and assertions that it passes: from there it
sets out once more when an assertion holds late. -/
def spreadFrom (p : Program) (passes : Look → Bool) (here : Nat) :
    Nat → List Thread → NodeSet → List Thread
  | 0, _, _ => []
  | _, [], _ => []
  | fuel + 1, t :: waiting, seen =>
    if seen.contains t.node then p.spreadFrom passes here fuel waiting seen
    else
      let seen := seen.insert t.node
      match p.nodes[t.node]? with
      | some (.fork nexts) =>
        t :: p.spreadFrom passes here fuel (nexts.map ({ t with node := · }) ++ waiting) seen
      | some (.look l next) =>
        let waiting := if passes l then { t with node := next } :: waiting else waiting
        t :: p.spreadFrom passes here fuel waiting seen
      | some (.save slot next) =>
        p.spreadFrom passes here fuel (⟨next, (slot, here) :: t.trail⟩ :: waiting) seen
      | _ => t :: p.spreadFrom passes here fuel waiting seen

/-- The threads that `threads` become before a character is read. -/
def spread (p : Program) (passes : Look → Bool) (here : Nat) (threads : List Thread) :
    List Thread :=
  p.spreadFrom passes here (p.edgeCount + threads.length + 1) threads (.none p.nodes.size)

/-- The threads that have come to a position. -/
def arrive (p : Program) (timing : Timing) (t : Text) (i : Nat) (threads : List Thread) :
    List Thread :=
  match timing with
  | .eager => p.spread (·.holds t i) i threads
  | .late => p.spread (·.holdsBehind t i) i threads

/-- Whether a thread has come to an assertion that turns out to hold only now. -/
def isReleased (p : Program) (t : Text) (i : Nat) (thread : Thread) : Bool :=
  match p.nodes[thread.node]? with
  | some (.look l _) => l.holds t i && !l.holdsBehind t i
  | _ => false

/-- The threads at a position once the next character is looked at. -/
def settle (p : Program) (timing : Timing) (t : Text) (i : Nat) (threads : List Thread) :
    List Thread :=
  if timing = .late ∧ threads.any (p.isReleased t i) then p.spread (·.holds t i) i threads
  else threads

/-- The threads that get past the character `c?`, and the one that accepts in front of it. No
thread behind that one counts any more. -/
def step (p : Program) (c? : Option Char) : List Thread → List Thread × Option Thread
  | [] => ([], none)
  | t :: ts =>
    match p.nodes[t.node]? with
    | some .accept => ([], some t)
    | some (.read s next) =>
      let (ts, accepted?) := p.step c? ts
      if c?.any s.contains then ({ t with node := next } :: ts, accepted?) else (ts, accepted?)
    | _ => p.step c? ts

/-- How a run ends. -/
inductive Outcome where
  /-- The search cannot tell. -/
  | gaveUp
  | failed
  | matched (f : Finish)
deriving DecidableEq, Repr, Inhabited

/-- Whether a late search gives up at a character. -/
def stops (p : Program) (timing : Timing) (c? : Option Char) : Bool :=
  timing = .late && p.asksForWords && c?.any (0x80 ≤ ·.toNat)

/-- Runs the threads at position `i` to their end. The best match so far is `best?`; a match is
`fresh` if the last character read found it, and the one behind it is looked at all the same. -/
def run (p : Program) (timing : Timing) (w : Window) :
    Nat → Nat → List Thread → Option Finish → Bool → Outcome
  | 0, _, _, best?, _ => ended best?
  | fuel + 1, i, threads, best?, fresh =>
    let c? := w.text.after? i
    if threads.isEmpty && !fresh then ended best?
    else if p.stops timing c? then .gaveUp
    else
      let inside := i < w.stop
      let threads := p.settle timing w.text i threads
      let (threads, accepted?) := p.step (if inside then c? else none) threads
      let best? := (accepted?.map fun t => ⟨i, t.trail⟩).or best?
      if inside then
        p.run timing w fuel (i + 1) (p.arrive timing w.text (i + 1) threads) best?
          accepted?.isSome
      else ended best?
where
  ended : Option Finish → Outcome
    | none => .failed
    | some f => .matched f

/-- The preferred match from position `start`. -/
def runFrom (p : Program) (timing : Timing) (w : Window) (start : Nat) : Outcome :=
  if p.stops timing (w.text.before? start) then .gaveUp
  else p.run timing w (w.stop + 1 - start) start (p.arrive timing w.text start [⟨p.start, []⟩])
    none false

end Program
end Tinct.Regex
