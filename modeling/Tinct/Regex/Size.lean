import Std.Data.HashMap
import Tinct.Regex.Encoding
import Tinct.Regex.Expr

/-!
# The size of an expression

A regular expression is refused when the automaton it stands for would need more than
`sizeLimit` bytes. The automaton reads bytes: it has a state for each byte of a literal, and for a
set it needs paths of byte ranges. Counted repetitions multiply, which is what makes short sources
large. There are two automata, one that reads forward and records groups and one that reads
backward and does not; each has to stay within the limit.

The states are numbered in the order in which they are laid out, and only counted here:

* `Tally`: what has been laid out so far;
* `Shelf`, `Tally.path`: how paths of a set share states;
* `Expr.count`: lays an expression out;
* `Expr.isTooLarge`: whether it needs too much.
-/

namespace Tinct.Regex

/-- The greatest size of an automaton, in bytes. -/
def sizeLimit : Nat := 1 <<< 21

/-- The direction in which an automaton reads. -/
inductive Direction where
  | forward
  | backward
deriving DecidableEq, Repr

/-! ## Counting -/

/-- What has been laid out: the number of states, which is also that of the next one, and the bytes
of the lists of edges that some states have. -/
structure Tally where
  states : Nat
  listed : Nat
deriving DecidableEq, Repr, Inhabited

namespace Tally

/-- The size in bytes: 32 for each state, and the lists. -/
def bytes (t : Tally) : Nat := 32 * t.states + t.listed

def isOver (t : Tally) : Bool := sizeLimit < t.bytes

/-- Some more states, whose lists take `listed` bytes together. -/
def add (states listed : Nat) (t : Tally) : Tally := ⟨t.states + states, t.listed + listed⟩

/-- The size of the list of a state that reads one of `n` byte ranges. -/
def readList (n : Nat) : Nat := 8 * n

/-- The size of the list of a state that goes on at one of `n` others without reading. -/
def forkList (n : Nat) : Nat := 4 * n

/-- Lays something out `n` times. A size over the limit is final. -/
def times (f : Tally → Tally) : Nat → Tally → Tally
  | 0, t => t
  | n + 1, t => if t.isOver then t else times f n (f t)

end Tally

/-! ## Paths of a set

The paths of a set share states. Forward, paths share what they begin with and what they end with;
backward only what they end with. States are found again by a key, if it is on the shelf still. -/

/-- Numbers hashed by the method FNV-1a, a number at a time. -/
def hashKey (key : List Nat) : UInt64 :=
  key.foldl (fun h n => (h ^^^ n.toUInt64) * 0x100000001B3) 0xCBF29CE484222325

/-- States to be found again. Each of the slots holds the key and the number of one state, the last
one whose key had the hash of the slot. -/
structure Shelf where
  slotCount : UInt64
  slots : Std.HashMap UInt64 (List Nat × Nat)

/-- The state with a key: the one on the shelf, or else the next one. -/
def Shelf.state (key : List Nat) (listed : Nat) (shelf : Shelf) (t : Tally) :
    Nat × Shelf × Tally :=
  let slot := hashKey key % shelf.slotCount
  match shelf.slots[slot]? with
  | some (k, state) => if k = key then (state, shelf, t) else fresh slot
  | none => fresh slot
where
  fresh (slot : UInt64) : Nat × Shelf × Tally :=
    (t.states, { shelf with slots := shelf.slots.insert slot (key, t.states) }, t.add 1 listed)

namespace Tally

/-- A state from which `paths`, each at most `depth` long, lead to the state `target`. Paths that
stand next to each other and begin alike have a common edge. -/
def path (target : Nat) : Nat → List (List ByteRange) → Shelf → Tally → Nat × Shelf × Tally
  | 0, _, shelf, t => (target, shelf, t)
  | depth + 1, paths, shelf, t =>
    if paths.all List.isEmpty then (target, shelf, t)
    else
      let (edges, shelf, t) := (paths.splitBy (·.head? == ·.head?)).foldl
        (fun (edges, shelf, t) group =>
          match group with
          | (r :: _) :: _ =>
            let (state, shelf, t) := path target depth (group.map List.tail) shelf t
            (edges ++ [[r.lo, r.hi, state]], shelf, t)
          | _ => (edges, shelf, t))
        ([], shelf, t)
      shelf.state edges.flatten (readList edges.length) t

/-- A set that is read forward. -/
def setForward (s : CharSet) (t : Tally) : Tally :=
  (path t.states 4 s.byteSequences ⟨10000, ∅⟩ (t.add 1 0)).2.2

/-- A set that is read backward. A fork leads to its paths, which are laid out from their ends,
where the first byte of an encoding is read. -/
def setBackward (s : CharSet) (t : Tally) : Tally :=
  let target := t.states + 1
  let paths := s.byteSequences
  let (_, t) := paths.foldl
    (fun (shelf, t) path =>
      let (_, shelf, t) := path.foldl
        (fun (state, shelf, t) r => shelf.state [state, r.lo, r.hi] 0 t) (target, shelf, t)
      (shelf, t))
    ((⟨1000, ∅⟩ : Shelf), t.add 2 (forkList paths.length))
  t

/-- A set. One state reads ASCII characters. -/
def set (d : Direction) (s : CharSet) (t : Tally) : Tally :=
  if s.isAscii then t.add 2 (readList s.ranges.length)
  else
    match d with
    | .forward => t.setForward s
    | .backward => t.setBackward s

/-! ## Choices between literals -/

/-- The parts of a list of literals between those that are empty; of empty ones in front, only one
counts. -/
def runs (ls : List (List Nat)) : List (List (List Nat)) :=
  let front := ls.takeWhile List.isEmpty
  let (run, runs) := (front.take 1 ++ ls.dropWhile List.isEmpty).foldr
    (fun l (run, runs) => if l.isEmpty then ([], run :: runs) else (l :: run, runs)) ([], [])
  run :: runs

/-- The tree of some literals, given as bytes, of which the longest has `depth`. Literals that begin
alike share an edge, unless a literal that ends there stands between them: that one is preferred to
those behind it, which need a state of their own. -/
def tree : Nat → List (List Nat) → Tally → Tally
  | 0, _, t => t
  | depth + 1, ls, t =>
    if ls.all List.isEmpty then t
    else
      let parts := runs ls
      let full := parts.filter (!·.isEmpty)
      let t := full.foldl
        (fun t run =>
          let firsts := (run.filterMap List.head?).eraseDups
          let t := firsts.foldl
            (fun t b => tree depth ((run.filter (·.head? == some b)).map List.tail) t) t
          t.add 1 (if firsts.length = 1 then 0 else readList firsts.length))
        t
      t.add 1 (forkList (full.length + parts.length - 1))

/-- A choice between literals. -/
def literals (d : Direction) (ls : List (List Char)) (t : Tally) : Tally :=
  let bytes := ls.map fun l =>
    let bs := l.flatMap fun c => utf8Bytes c.toNat
    match d with
    | .forward => bs
    | .backward => bs.reverse
  tree ((bytes.map List.length).foldl max 0) bytes (t.add 1 0)

/-- A choice, given what lays out each branch. -/
def choice : List (Tally → Tally) → Tally → Tally
  | [], t => t
  | [f], t => f t
  | f :: g :: fs, t =>
    fs.foldl (fun t f => (f t).add 0 (forkList 1)) ((g (f t)).add 2 (forkList 2))

/-- A repetition of what `f` lays out. -/
def repetition (f : Tally → Tally) (min : Nat) (max : Option Nat) (isNullable : Bool)
    (t : Tally) : Tally :=
  match max with
  | none =>
    if 0 < min then (times f min t).add 1 (forkList 2)
    else if isNullable then (f t).add 3 (2 * forkList 2)
    else f (t.add 1 (forkList 2))
  | some max =>
    let t := if min = 0 ∧ max ≠ 1 then t.add 1 0 else times f min t
    if min = max then t
    else if min = 0 ∧ max = 1 then (f (t.add 1 (forkList 2))).add 1 0
    else times (fun t => f (t.add 1 (forkList 2))) (max - min) (t.add 1 0)

end Tally

namespace Expr

/-- The characters of an expression that is a literal. -/
def literal? : Expr → Option (List Char)
  | .literal cs => some cs
  | _ => none

/-- What lays out each branch of an expression. -/
def counts (d : Direction) : Expr → List (Tally → Tally)
  | .empty | .look _ => [.add 1 0]
  | .literal cs => [.add (cs.flatMap fun c => utf8Bytes c.toNat).length 0]
  | .set s => [.set d s]
  | .group _ _ e =>
    let body := join d e (e.counts d)
    match d with
    | .forward => [fun t => (body (t.add 1 0)).add 1 0]
    | .backward => [body]
  | .seq a b =>
    let first := join d a (a.counts d)
    let second := join d b (b.counts d)
    match d with
    | .forward => [fun t => second (first t)]
    | .backward => [fun t => first (second t)]
  | .alt a b => a.counts d ++ b.counts d
  | .rep e min max _ => [.repetition (join d e (e.counts d)) min max e.isNullable]
where
  /-- What lays out a whole expression. -/
  join (d : Direction) (e : Expr) (counts : List (Tally → Tally)) : Tally → Tally :=
    match e.branches.mapM literal? with
    | some (l :: m :: ls) => .literals d (l :: m :: ls)
    | _ => .choice counts

/-- Lays out an expression. -/
def count (d : Direction) (e : Expr) : Tally → Tally := counts.join d e (e.counts d)

/-- Whether a match can only be where `l` holds at its edge, the one that is read first. -/
def isHeldBy (d : Direction) (l : Look) : Expr → Bool
  | .look k => k = l
  | .group _ _ e => e.isHeldBy d l
  | .seq a b =>
    match d with
    | .forward => a.isHeldBy d l || (a.isEmptyWidth && b.isHeldBy d l)
    | .backward => b.isHeldBy d l || (b.isEmptyWidth && a.isHeldBy d l)
  | .alt a b => a.isHeldBy d l && b.isHeldBy d l
  | .rep e min _ _ => 0 < min && e.isHeldBy d l
  | _ => false

/-- The automaton of a whole source: it skips to where a match begins, unless there is only one
place for that, lays out the expression, and accepts. Forward it records the whole match. -/
def tally (d : Direction) (e : Expr) : Tally :=
  let edge : Look := match d with
    | .forward => .textStart
    | .backward => .textEnd
  let t : Tally := if e.isHeldBy d edge then ⟨1, 0⟩
    else ⟨3, Tally.readList 1 + Tally.forkList 2⟩
  let t := match d with
    | .forward => (e.count d (t.add 1 0)).add 1 0
    | .backward => e.count d t
  t.add 1 0

/-- How many literals a choice needs to have to be searched for without an automaton. -/
def manyWords : Nat := 3000

/-- Whether an automaton of the expression exceeds the limit. A choice between very many literals
needs none. -/
def isTooLarge (e : Expr) : Bool :=
  let words := e.branches.mapM literal?
  !words.any (manyWords ≤ ·.length) && ((e.tally .forward).isOver || (e.tally .backward).isOver)

end Expr
end Tinct.Regex
