import Tinct.Error
import Tinct.Scan.Step

/-!
# Scanning a text

`Grammar.tokenize` scans a text with a grammar. Each step opens a region, closes regions, or ends
the scan:

* `State.begin`, `State.finish`: what a begin and an end do;
* `State.recover`: the end of a lenient scan at an illegal sequence;
* `scan`: the steps of a scan, of which there are at most `stepBound`.
-/

namespace Tinct

/-- What to do at an illegal sequence. -/
inductive IllegalPolicy where
  /-- The scan fails. -/
  | abort
  /-- All regions close, and the rest is plain text. -/
  | plainRemainder
deriving DecidableEq, Repr

namespace Scan
namespace State

/-- A region has closed; those around it that it takes along close too. -/
def cascade (g : Grammar) (t : Text) : Nat → Mode → State → State
  | 0, _, s => s
  | n + 1, closed, s =>
    if closed.flags.endsParent then
      let parent := s.top.mode
      let s := s.flushTo g t s.position
      match s.pop? s.position .byChild with
      | some s => cascade g t n parent s
      | none => s
    else s

/-- What ends a region that has begun at `span`. -/
def endMatcher (t : Text) (v : Variant) (span : Span) : Except GrammarFault (Option Matcher) :=
  match v.finish with
  | .pattern (.static m) => .ok (some m)
  | .pattern (.template e) =>
    ((e.instantiate (v.begin.captures t span)).map some).mapError .endPattern
  | .immediate | .unbounded => .ok none

/-- The region of a mode opens at the begin lexeme `span`. The lexeme is the first text of the
region, or a token of its own. -/
def enter (g : Grammar) (t : Text) (m : Mode) (finish : Option Matcher) (span : Span)
    (s : State) : State :=
  let start := if m.flags.excludeBegin then span.stop else span.start
  match m.beginScope with
  | some scope =>
    let s := s.flushTo g t span.start
    let s :=
      if m.flags.excludeBegin then
        push m finish start { s with log := s.log.delimiter span scope }
      else
        let s := push m finish start s
        { s with log := s.log.delimiter span scope }
    { s with flushed := span.stop }
  | none =>
    let s := push m finish start (s.flushTo g t start)
    { s with flushed := start }

/-- A variant of the mode `id` begins at `span`. -/
def begin (g : Grammar) (t : Text) (id index : Nat) (span : Span) (s : State) :
    Except GrammarFault State :=
  let m := g.mode id
  match m.variants[index]? with
  | none => .ok s
  | some v => do
    let s := if span.isEmpty then { s with emptyBegins := s.emptyBegins.record span.start id }
      else s
    let s := { s with log := s.log.scoreMode m }
    let finish ← endMatcher t v span
    let s := { enter g t m finish span s with position := span.stop }
    match v.finish with
    | .immediate =>
      let s := (s.flushTo g t span.stop).pop span.stop .matched
      return s.cascade g t s.below.length m
    | _ => return s

/-- The innermost regions close, `levels` of them, because one around them ends at `i`. -/
def closeInner (g : Grammar) (t : Text) (i : Nat) : Nat → State → State
  | 0, s => s
  | levels + 1, s => closeInner g t i levels ((s.flushTo g t i).pop i .withParent)

/-- The region `level` levels below the innermost one ends at the end lexeme `span`. The lexeme is
the last text of the region, a token of its own, or left to what stands around the region. -/
def finish (g : Grammar) (t : Text) (level : Nat) (span : Span) (s : State) : State :=
  let s := closeInner g t span.start level s
  let m := s.top.mode
  let s :=
    if m.flags.returnEnd then
      let s := (s.flushTo g t span.start).pop span.start .matched
      { s with position := span.start }
    else if m.flags.excludeEnd then
      let s := (s.flushTo g t span.start).pop span.start .matched
      let s := match m.endScope with
        | some scope => { s with log := s.log.delimiter span scope, flushed := span.stop }
        | none => { s with flushed := span.start }
      { s with position := span.stop }
    else
      match m.endScope with
      | some scope =>
        let s := s.flushTo g t span.start
        let s := { s with log := s.log.delimiter span scope }
        { s.pop span.stop .matched with flushed := span.stop, position := span.stop }
      | none => { (s.flushTo g t span.stop).pop span.stop .matched with position := span.stop }
  s.cascade g t s.below.length m

/-- The text has run out. -/
def finishInput (g : Grammar) (t : Text) (s : State) : State :=
  (s.flushTo g t t.size).popAll t.size .endOfInput s.below.length

/-- All regions close at an illegal sequence; the rest is plain text. -/
def recover (g : Grammar) (t : Text) (i : Nat) (s : State) : State :=
  let s := (s.flushTo g t i).popAll i .illegal s.below.length
  { s with log := s.log.raw ⟨i, t.size⟩, flushed := t.size, position := t.size }

end State

/-- The result of a finished scan, its offsets in bytes. -/
def State.result (t : Text) (s : State) (illegal : Option Nat) : Tokenization :=
  let offsets := t.offsets
  let offset (i : Nat) : Nat := offsets.getD i 0
  ⟨(s.log.events.map (·.mapOffsets offset)).reverse, s.log.relevance, illegal.map offset⟩

/-- The steps that a scan of `n` characters with `m` modes takes at most: each begin consumes
something or is the only empty one of its mode at its position, and each end closes a region. -/
def stepBound (n m : Nat) : Nat := 2 * (n + m * (n + 1)) + 1

/-- Scans on for at most `steps` steps. -/
def scan (g : Grammar) (t : Text) (policy : IllegalPolicy) :
    Nat → State → Except Error Tokenization
  | 0, s => .ok ((s.finishInput g t).result t none)
  | steps + 1, s =>
    match nextStep g t s with
    | (.begin id index span, s) =>
      match s.begin g t id index span with
      | .ok s => scan g t policy steps s
      | .error e => .error (.malformed g.name e)
    | (.finish level span, s) => scan g t policy steps (s.finish g t level span)
    | (.illegal i, s) =>
      match policy with
      | .abort => .error (.illegalSequence g.name (t.offsets.getD i 0))
      | .plainRemainder => .ok ((s.recover g t i).result t (some i))
    | (.done, s) => .ok ((s.finishInput g t).result t none)

end Scan

namespace Grammar

/-- The tokens of a text. -/
def tokenize (g : Grammar) (policy : IllegalPolicy) (source : String) :
    Except Error Tokenization :=
  let t := Text.ofString source
  Scan.scan g t policy (Scan.stepBound t.size g.modes.size) (.initial g)

end Grammar
end Tinct
