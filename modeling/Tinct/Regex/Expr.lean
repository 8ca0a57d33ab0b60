import Tinct.CharSet

/-!
# Regular expressions

The expressions that patterns stand for, after flags, classes and escapes have been resolved:
`Expr`, built from literals, sets of characters and the assertions `Look`.

Expressions are built by functions that keep them in a simple form: `Expr.ofSet`, `Expr.concat`,
`Expr.choice` and `Expr.repeated`. The form is more than a convenience, since what a choice prefers
depends on it: branches that all begin with the same elements share these (`Expr.choice`), and then
an element that is repeated is shared together with all the ways in which it can match.
-/

namespace Tinct.Regex

/-- An assertion about the text around a position. -/
inductive Look where
  | textStart
  | textEnd
  /-- At the start of a line; lines end at `\n`. -/
  | lineStart
  | lineEnd
  /-- At the start of a line; lines end at `\n`, `\r` or both in a row. -/
  | anyLineStart
  | anyLineEnd
  /-- Between a word character and another character or an end of the text; words are made of
  `\w`, or of its ASCII members. -/
  | wordBoundary (ascii : Bool)
  | notWordBoundary (ascii : Bool)
  | wordStart (ascii : Bool)
  | wordEnd (ascii : Bool)
  /-- No word character in front. -/
  | wordStartHalf (ascii : Bool)
  /-- No word character behind. -/
  | wordEndHalf (ascii : Bool)
deriving DecidableEq, Repr, Inhabited

/-- Whether the assertion is about words of more than ASCII characters. -/
def Look.asksForWords : Look → Bool
  | .wordBoundary ascii | .notWordBoundary ascii | .wordStart ascii | .wordEnd ascii
  | .wordStartHalf ascii | .wordEndHalf ascii => !ascii
  | _ => false

/-- A regular expression. -/
inductive Expr where
  | empty
  /-- Some characters in a row. -/
  | literal (cs : List Char)
  /-- One character of a set. -/
  | set (s : CharSet)
  | look (l : Look)
  /-- A group that records what its body matched, under the number `index`. -/
  | group (index : Nat) (name : Option String) (body : Expr)
  | seq (first second : Expr)
  /-- Either expression; the first is preferred. -/
  | alt (first second : Expr)
  /-- At least `min` and at most `max` times the body, no bound above for `none`. A greedy
  repetition prefers one more time, a lazy one prefers to stop. -/
  | rep (body : Expr) (min : Nat) (max : Option Nat) (greedy : Bool)
deriving DecidableEq, Repr, Inhabited

namespace Expr

/-! ## What an expression may consume -/

/-- Whether the expression consumes no character, whatever it matches. -/
def isEmptyWidth : Expr → Bool
  | .empty => true
  | .literal cs => cs.isEmpty
  | .set _ => false
  | .look _ => true
  | .group _ _ e => e.isEmptyWidth
  | .seq a b => a.isEmptyWidth && b.isEmptyWidth
  | .alt a b => a.isEmptyWidth && b.isEmptyWidth
  | .rep e _ _ _ => e.isEmptyWidth

/-- Whether every set in the expression has a member. -/
def isInhabited : Expr → Bool
  | .empty | .literal _ | .look _ => true
  | .set s => !s.isEmpty
  | .group _ _ e => e.isInhabited
  | .seq a b | .alt a b => a.isInhabited && b.isInhabited
  | .rep e _ _ _ => e.isInhabited

/-- Whether the expression consumes a character whenever it matches, as far as its shape tells. -/
def isConsuming : Expr → Bool
  | .empty | .look _ => false
  | .literal cs => !cs.isEmpty
  | .set _ => true
  | .group _ _ e => e.isConsuming
  | .seq a b => a.isConsuming || b.isConsuming
  | .alt a b => a.isConsuming && b.isConsuming
  | .rep e min _ _ => 0 < min && e.isConsuming

/-- Whether a repetition of the expression has to expect that a turn consumes nothing. Nothing is
known of one that cannot match at all. -/
def isNullable (e : Expr) : Bool := !(e.isConsuming && e.isInhabited)

/-! ## Building expressions -/

/-- One character of `s`; a set of one character is a literal. -/
def ofSet (s : CharSet) : Expr :=
  match s.only? with
  | some n => .literal [.ofNat n]
  | none => .set s

/-- The elements of a sequence. -/
def factors : Expr → List Expr
  | .empty => []
  | .seq a b => a :: factors b
  | e => [e]

/-- The branches of a choice. -/
def branches : Expr → List Expr
  | .alt a b => a :: branches b
  | e => [e]

/-- Elements in a row; literals that meet become one. -/
def joinLiterals : List Expr → List Expr
  | .literal a :: es =>
    match joinLiterals es with
    | .literal b :: es => .literal (a ++ b) :: es
    | es => .literal a :: es
  | e :: es => e :: joinLiterals es
  | [] => []

def seqs : List Expr → Expr
  | [] => .empty
  | [e] => e
  | e :: es => .seq e (seqs es)

def alts : List Expr → Expr
  | [] => .set .empty
  | [e] => e
  | e :: es => .alt e (alts es)

/-- The sequence of `es`, without the empty ones. -/
def concat (es : List Expr) : Expr := seqs (joinLiterals (es.flatMap factors))

/-- The set that an expression is, if it is one. -/
def set? : Expr → Option CharSet
  | .set s => some s
  | _ => none

/-- The set of the one character that an expression is, if it is one. -/
def char? : Expr → Option CharSet
  | .literal [c] => some (.singleton c)
  | _ => none

/-- The choice between `es`. Between single characters, or between sets, it is a set. -/
def oneOf (es : List Expr) : Expr :=
  let bs := es.flatMap branches
  match bs with
  | [e] => e
  | _ =>
    match (bs.mapM char?).or (bs.mapM set?) with
    | some ss => ofSet (CharSet.unions ss)
    | none => alts bs

/-- The elements with which both sequences begin. -/
def sharedStart : List Expr → List Expr → List Expr
  | a :: as, b :: bs => if a = b then a :: sharedStart as bs else []
  | _, _ => []

/-- The elements with which all of the branches begin, where each of them is a sequence. -/
def commonStart : List Expr → List Expr
  | [] => []
  | e :: es =>
    if (e :: es).all fun b => 1 < b.factors.length then
      es.foldl (fun start b => sharedStart start b.factors) e.factors
    else []

/-- The choice between `es`, in which sequences that begin alike are told apart only behind the
elements that they share. -/
def choice (es : List Expr) : Expr :=
  let bs := es.flatMap branches
  let start := if 1 < bs.length then commonStart bs else []
  if start.isEmpty then oneOf bs
  else concat (start ++ [oneOf (bs.map fun b => concat (b.factors.drop start.length))])

/-- The repetition of `e`. What matches no character need not be repeated more than once, and
what is repeated no times leaves nothing, its groups included. -/
def repeated (e : Expr) (min : Nat) (max : Option Nat) (greedy : Bool) : Expr :=
  let (min, max) := if e.isEmptyWidth then (Nat.min min 1, some ((max.map (Nat.min 1)).getD 1))
    else (min, max)
  if max = some 0 then .empty
  else if min = 1 ∧ max = some 1 then e
  else .rep e min max greedy

/-! ## Groups -/

/-- The groups of an expression in the order they open: number and name. -/
def groups : Expr → List (Nat × Option String)
  | .group i name e => (i, name) :: e.groups
  | .seq a b => a.groups ++ b.groups
  | .alt a b => a.groups ++ b.groups
  | .rep e _ _ _ => e.groups
  | _ => []

/-- The name of each group number from 0, the whole match, to the last group. -/
def groupNames (e : Expr) : List (Option String) :=
  let gs := e.groups
  none :: (List.range (gs.foldl (fun n g => max n g.1) 0)).map fun i => (gs.lookup (i + 1)).join

end Expr
end Tinct.Regex
