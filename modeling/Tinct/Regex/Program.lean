import Tinct.Regex.Expr

/-!
# Programs

A regular expression as a graph of nodes, `Program`, in which a match is a path from the start to
the node that accepts. Of several ways to go on from a node the first is preferred.

`Expr.program` lays an expression out. Each part is laid out in front of what follows it: a
function takes the node to go on with and gives the node to begin with. A repetition without bound
is a loop, and a counted one is laid out as often as it counts.
-/

namespace Tinct.Regex

/-- A node of a program. -/
inductive Node where
  | accept
  /-- Reads a character of a set. -/
  | read (s : CharSet) (next : Nat)
  | look (l : Look) (next : Nat)
  /-- Goes on at any of `nexts`, earlier ones preferred. -/
  | fork (nexts : List Nat)
  /-- Records the position under the number `slot`. -/
  | save (slot next : Nat)
deriving DecidableEq, Repr, Inhabited

namespace Node

/-- The nodes to go on with. -/
def nexts : Node → List Nat
  | .accept => []
  | .read _ next | .look _ next | .save _ next => [next]
  | .fork nexts => nexts

/-- Whether the node asks about words of more than ASCII characters. -/
def asksForWords : Node → Bool
  | .look l _ => l.asksForWords
  | _ => false

end Node

/-- A regular expression as a graph. -/
structure Program where
  nodes : Array Node
  start : Nat
  /-- How many edges the graph has. -/
  edgeCount : Nat
  /-- Whether a node asks about words of more than ASCII characters. -/
  asksForWords : Bool
  edgeCount_eq : edgeCount = nodes.foldl (fun n node => n + node.nexts.length) 0
deriving DecidableEq, Repr

/-- The program of some nodes. -/
def Program.ofNodes (nodes : Array Node) (start : Nat) : Program where
  nodes
  start
  edgeCount := nodes.foldl (fun n node => n + node.nexts.length) 0
  asksForWords := nodes.any (·.asksForWords)
  edgeCount_eq := rfl

instance : Inhabited Program := ⟨.ofNodes #[] 0⟩

/-- The slot in which the start of a group is recorded. -/
def startSlot (group : Nat) : Nat := 2 * group

/-- The slot in which the end of a group is recorded. -/
def stopSlot (group : Nat) : Nat := 2 * group + 1

/-- A layout under way: the nodes so far, and the one to begin with. -/
structure Layout where
  nodes : Array Node
  entry : Nat

namespace Layout

/-- Begins with another node. -/
def push (n : Node) : Layout → Layout
  | ⟨nodes, _⟩ =>
    let entry := nodes.size
    ⟨nodes.push n, entry⟩

/-- Begins with a node from which the layout goes on. -/
def pushOnto (node : Nat → Node) (l : Layout) : Layout := l.push (node l.entry)

/-- Begins with any of several nodes. -/
def join : List Nat × Array Node → Layout
  | ([i], nodes) => ⟨nodes, i⟩
  | (is, nodes) => push (.fork is) ⟨nodes, 0⟩

/-- Lays something out `n` times in a row. -/
def times (f : Layout → Layout) : Nat → Layout → Layout
  | 0, l => l
  | n + 1, l => times f n (f l)

/-- A fork between a body and what follows; a lazy one prefers what follows. -/
def turn (greedy : Bool) (body next : Nat) : Node :=
  .fork (if greedy then [body, next] else [next, body])

/-- One turn of `f` or more: a fork behind the body leads back to it. The layout begins with the
body, and the number is that of the fork. -/
def loop (f : Layout → Layout) (greedy : Bool) : Layout → Layout × Nat
  | ⟨nodes, next⟩ =>
    let fork := nodes.size
    let ⟨nodes, body⟩ := f ⟨nodes.push (.fork []), fork⟩
    (⟨nodes.setIfInBounds fork (turn greedy body next), body⟩, fork)

/-- At most one turn of `f`, with `out` to go on with instead. -/
def option (f : Layout → Layout) (greedy : Bool) (out : Nat) (l : Layout) : Layout :=
  (f l).pushOnto (turn greedy · out)

/-- A repetition of `f`. Where a turn may consume nothing, any number of turns is none or a loop
of one or more: that way what is preferred does not depend on where the loop is entered. -/
def repetition (f : Layout → Layout) (min : Nat) (max : Option Nat) (greedy nullable : Bool)
    (l : Layout) : Layout :=
  let next := l.entry
  match max with
  | some max => times f min (times (option f greedy next) (max - min) l)
  | none =>
    match loop f greedy l with
    | (body, fork) =>
      if 0 < min then times f (min - 1) body
      else if nullable then body.pushOnto (turn greedy · next)
      else ⟨body.nodes, fork⟩

end Layout

namespace Expr

/-- Lays out the branches of an expression: their first nodes, and all nodes. -/
def entries : Expr → Layout → List Nat × Array Node
  | .empty, ⟨nodes, next⟩ => ([next], nodes)
  | .literal cs, l => one (cs.foldr (fun c => Layout.pushOnto (.read (.singleton c))) l)
  | .set s, l => one (l.pushOnto (.read s))
  | .look k, l => one (l.pushOnto (.look k))
  | .group i _ e, l =>
    let body := Layout.join (e.entries (l.pushOnto (.save (stopSlot i))))
    one (body.pushOnto (.save (startSlot i)))
  | .seq a b, l => one (Layout.join (a.entries (Layout.join (b.entries l))))
  | .alt a b, ⟨nodes, next⟩ =>
    let (is, nodes) := a.entries ⟨nodes, next⟩
    let (js, nodes) := b.entries ⟨nodes, next⟩
    (is ++ js, nodes)
  | .rep e min max greedy, l =>
    one (l.repetition (fun l => Layout.join (e.entries l)) min max greedy e.isNullable)
where
  one : Layout → List Nat × Array Node
    | ⟨nodes, entry⟩ => ([entry], nodes)

/-- The program of an expression. -/
def program (e : Expr) : Program :=
  let ⟨nodes, start⟩ := Layout.join (e.entries ⟨#[.accept], 0⟩)
  .ofNodes nodes start

end Expr

end Tinct.Regex
