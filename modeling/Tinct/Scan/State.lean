import Tinct.Grammar.Mode

/-!
# The state of a scan

A scan walks through a text with a stack of open regions. Text between lexemes waits until the
region it belongs to changes; it is then flushed: keywords are picked out, and the rest takes the
scope of the innermost region that has one.

* `Cache.find`: a search that remembers its last answer while it stays the right one;
* `Log`: the events so far and the relevance they add up to;
* `State.flushTo`, `State.push`, `State.pop`: the moves a scan is made of, and what each of them
  does to the stack (`State.flushTo_below`, `State.push_below`, `State.pop_below`).

Positions count characters.
-/

namespace Tinct.Scan

/-- The last search for a pattern: where it started and what it found. -/
structure Cache where
  searched : Option Nat := none
  found : Option Span := none
deriving DecidableEq, Repr

namespace Cache

/-- Whether the answer still stands at position `i`: the search started no later, and what it
found does not lie behind. -/
def stands (c : Cache) (i : Nat) : Bool :=
  match c.searched, c.found with
  | none, _ => false
  | some from', none => from' ≤ i
  | some from', some s => from' ≤ i && i ≤ s.start

/-- The first match of `m` from position `i` on. -/
def find (c : Cache) (m : Matcher) (t : Text) (i : Nat) (allowEmpty : Bool) :
    Option Span × Cache :=
  if c.stands i then (c.found, c)
  else
    let found := m.find? t i allowEmpty
    (found, ⟨some i, found⟩)

end Cache

/-- An open region, or the text outside every region at the bottom of the stack. -/
structure Frame where
  mode : Mode
  /-- What ends the region, if anything of its own does. -/
  finish : Option Matcher
  start : Nat
  /-- The scope of its plain text. -/
  textScope : Option Scope
  endCache : Cache := {}
  illegalCache : Cache := {}
  /-- A cache for each variant that may begin here, in order, as far as they were asked for. -/
  beginCaches : List Cache := []

/-- The modes that have begun with an empty match at a position. -/
structure EmptyBegins where
  position : Nat := 0
  modes : List Nat := []

namespace EmptyBegins

def contains (e : EmptyBegins) (i mode : Nat) : Bool := e.position == i && e.modes.contains mode

def record (e : EmptyBegins) (i mode : Nat) : EmptyBegins :=
  if e.position = i then { e with modes := mode :: e.modes } else ⟨i, [mode]⟩

end EmptyBegins

/-- The events of a scan, last first, and the relevance they add up to. -/
structure Log where
  events : List Event := []
  relevance : Nat := 0
  /-- The modes that have been entered. -/
  entered : List Nat := []

namespace Log

/-- Adds to the relevance, which has a bound. -/
def score (l : Log) (weight : Nat) : Log :=
  { l with relevance := min (l.relevance + weight) maxWeight }

/-- The relevance of a mode counts once. -/
def scoreMode (l : Log) (m : Mode) : Log :=
  if l.entered.contains m.id then l
  else { l.score m.relevance with entered := m.id :: l.entered }

def event (l : Log) (e : Event) : Log := { l with events := e :: l.events }

/-- Adds a token that is not empty. Plain text joins plain text of the same scope in front. -/
def token (l : Log) (t : Token) : Log :=
  if t.span.isEmpty then l
  else
    match l.events with
    | .token last :: rest =>
      if last.kind = .text ∧ t.kind = .text ∧ last.scope = t.scope ∧
          last.span.stop = t.span.start then
        { l with events := .token { last with span := ⟨last.span.start, t.span.stop⟩ } :: rest }
      else l.event (.token t)
    | _ => l.event (.token t)

/-- Adds text as it is: what stands in front does not join it. -/
def raw (l : Log) (span : Span) : Log :=
  if span.isEmpty then l else l.event (.token ⟨span, none, .text⟩)

def delimiter (l : Log) (span : Span) (scope : Scope) : Log :=
  l.token ⟨span, some scope, .delimiter⟩

/-- Adds the matches among `hits` that are keywords, and the text between them from `i` up to
`stop` in the scope `scope`. The hits are those of the part of the text from `start` on. -/
def keywords (table : KeywordTable) (scope : Option Scope) (t : Text) (start stop : Nat) :
    Nat → List Span → Log → Log
  | i, [], l => l.token ⟨⟨i, stop⟩, scope, .text⟩
  | i, hit :: hits, l =>
    let hit' : Span := ⟨start + hit.start, start + hit.stop⟩
    match if hit.isEmpty then none else table.lookup (t.extract hit') with
    | none => keywords table scope t start stop i hits l
    | some k =>
      let l := l.token ⟨⟨i, hit'.start⟩, scope, .text⟩
      let l := l.token ⟨hit', some k.category, .keyword⟩
      keywords table scope t start stop hit'.stop hits (l.score k.weight)

/-- Adds the text `span` of a mode, keywords picked out of it. -/
def text (g : Grammar) (m : Mode) (scope : Option Scope) (t : Text) (span : Span) (l : Log) :
    Log :=
  if span.isEmpty then l
  else
    let (table, identifier) := g.effectiveKeywords m
    let hits := if table.isEmpty then []
      else identifier.findAll ⟨t.chars.extract span.start span.stop⟩
    keywords table scope t span.start span.stop span.start hits l

end Log

/-- A scan under way. -/
structure State where
  /-- The innermost open region. -/
  top : Frame
  /-- The regions around it, innermost first. -/
  below : List Frame
  position : Nat
  /-- Where the text that waits begins. -/
  flushed : Nat
  log : Log
  grammarIllegal : Cache
  emptyBegins : EmptyBegins

namespace State

/-- The start of a scan. -/
def initial (g : Grammar) : State :=
  { top := ⟨g.root, none, 0, none, {}, {}, []⟩, below := [], position := 0, flushed := 0
    log := {}, grammarIllegal := {}, emptyBegins := {} }

/-- Adds the text that waits, up to position `i`, to the innermost region. -/
def flushTo (g : Grammar) (t : Text) (i : Nat) (s : State) : State :=
  if i ≤ s.flushed then s
  else
    { s with log := s.log.text g s.top.mode s.top.textScope t ⟨s.flushed, i⟩, flushed := i }

/-- A region opens. -/
def push (m : Mode) (finish : Option Matcher) (start : Nat) (s : State) : State :=
  { s with
    log := s.log.event (.enter m.id m.scope start)
    top := { mode := m, finish, start, textScope := m.scope.or s.top.textScope }
    below := s.top :: s.below }

/-- The innermost region closes; the text outside every region does not. -/
def pop? (stop : Nat) (closure : Closure) (s : State) : Option State :=
  match s.below with
  | [] => none
  | frame :: below =>
    let event := .exit s.top.mode.id s.top.mode.scope ⟨s.top.start, stop⟩ closure
    some { s with log := s.log.event event, top := frame, below }

def pop (stop : Nat) (closure : Closure) (s : State) : State := (s.pop? stop closure).getD s

/-- All regions close. -/
def popAll (stop : Nat) (closure : Closure) : Nat → State → State
  | 0, s => s
  | n + 1, s => popAll stop closure n (s.pop stop closure)

/-! ## What the moves leave as it is -/

@[simp] theorem flushTo_top (g : Grammar) (t : Text) (i : Nat) (s : State) :
    (s.flushTo g t i).top = s.top := by
  unfold flushTo; split <;> rfl

@[simp] theorem flushTo_below (g : Grammar) (t : Text) (i : Nat) (s : State) :
    (s.flushTo g t i).below = s.below := by
  unfold flushTo; split <;> rfl

@[simp] theorem flushTo_position (g : Grammar) (t : Text) (i : Nat) (s : State) :
    (s.flushTo g t i).position = s.position := by
  unfold flushTo; split <;> rfl

/-- Text waits from the flushed position on, which never moves back. -/
theorem flushTo_flushed (g : Grammar) (t : Text) (i : Nat) (s : State) :
    (s.flushTo g t i).flushed = max s.flushed i := by
  unfold flushTo
  split
  · exact (Nat.max_eq_left ‹_›).symm
  · exact (Nat.max_eq_right (Nat.le_of_lt (Nat.lt_of_not_le ‹_›))).symm

@[simp] theorem push_below (m : Mode) (finish : Option Matcher) (start : Nat) (s : State) :
    (s.push m finish start).below = s.top :: s.below := rfl

theorem pop?_eq_none_iff {stop : Nat} {closure : Closure} {s : State} :
    s.pop? stop closure = none ↔ s.below = [] := by
  unfold pop?; split <;> simp_all

@[simp] theorem pop_below (stop : Nat) (closure : Closure) (s : State) :
    (s.pop stop closure).below = s.below.tail := by
  unfold pop pop?; split <;> simp_all

/-- Popping as often as there are regions leaves none. -/
theorem popAll_below (stop : Nat) (closure : Closure) (s : State) (n : Nat) :
    (popAll stop closure n s).below = s.below.drop n := by
  induction n generalizing s with
  | zero => rfl
  | succ n ih => rw [popAll, ih, pop_below, List.drop_tail]

end State
end Tinct.Scan
