import Tinct.Proofs.Scan.Arbitration

/-!
# A scan that remembers nothing

What a scan remembers only saves searches: a scan that decides every step afresh goes through the
same states but for what is remembered in them, and returns the same:

* `scanAfresh`, `Grammar.tokenizeAfresh`: scanning with `arbitrate` in place of `nextStep`;
* `State.begin_forget`, `State.finish_forget`: begins and ends do not look at what is remembered;
* `scan_eq_scanAfresh`: from every state that a scan comes to, both scans return the same;
* `caching_preserves_scan`: so they do from the start, and each step on the way is the same.
-/

namespace Tinct
namespace Scan

/-- Scans on for at most `steps` steps, each of them decided afresh. -/
def scanAfresh (g : Grammar) (t : Text) (policy : IllegalPolicy) :
    Nat → State → Except Error Tokenization
  | 0, s => .ok ((s.finishInput g t).result t none)
  | steps + 1, s =>
    match arbitrate g t s with
    | .begin id index span =>
      match s.begin g t id index span with
      | .ok s => scanAfresh g t policy steps s
      | .error e => .error (.malformed g.name e)
    | .finish level span => scanAfresh g t policy steps (s.finish g t level span)
    | .illegal i =>
      match policy with
      | .abort => .error (.illegalSequence g.name (t.offsets.getD i 0))
      | .plainRemainder => .ok ((s.recover g t i).result t (some i))
    | .done => .ok ((s.finishInput g t).result t none)

/-! ## The moves do not look at what is remembered -/

namespace State

section moves
variable (g : Grammar) (t : Text) (s : State)

theorem flushTo_forget (i : Nat) : (s.flushTo g t i).forget = s.forget.flushTo g t i := by
  unfold flushTo
  split
  · rename_i h
    exact (if_pos (show i ≤ s.forget.flushed from h)).symm
  · rename_i h
    exact (if_neg (show ¬i ≤ s.forget.flushed from h)).symm

theorem pop?_forget (stop : Nat) (closure : Closure) :
    s.forget.pop? stop closure = (s.pop? stop closure).map forget := by
  obtain ⟨top, below, position, flushed, log, grammarIllegal, emptyBegins⟩ := s
  cases below <;> rfl

theorem pop_forget (stop : Nat) (closure : Closure) :
    (s.pop stop closure).forget = s.forget.pop stop closure := by
  obtain ⟨top, below, position, flushed, log, grammarIllegal, emptyBegins⟩ := s
  cases below <;> rfl

theorem popAll_forget (stop : Nat) (closure : Closure) (n : Nat) :
    (s.popAll stop closure n).forget = s.forget.popAll stop closure n := by
  induction n generalizing s with
  | zero => rfl
  | succ n ih => rw [popAll, popAll, ih, pop_forget]

theorem below_length_forget : s.forget.below.length = s.below.length := List.length_map _

theorem cascade_forget (n : Nat) (closed : Mode) :
    (s.cascade g t n closed).forget = s.forget.cascade g t n closed := by
  induction n generalizing s closed with
  | zero => rfl
  | succ n ih =>
    have hflushed : (s.flushTo g t s.position).forget.position =
      (s.flushTo g t s.position).position := rfl
    rw [cascade, cascade]
    dsimp only
    rw [show s.forget.position = s.position from rfl, ← flushTo_forget, hflushed, pop?_forget,
      apply_ite forget]
    congr 1
    cases (s.flushTo g t s.position).pop? (s.flushTo g t s.position).position .byChild with
    | none => rfl
    | some s' => exact ih s' s.top.mode

theorem closeInner_forget (i levels : Nat) :
    (s.closeInner g t i levels).forget = s.forget.closeInner g t i levels := by
  induction levels generalizing s with
  | zero => rfl
  | succ levels ih => rw [closeInner, closeInner, ih, pop_forget, flushTo_forget]

theorem enter_forget (m : Mode) (finish : Option Matcher) (span : Span) :
    (s.enter g t m finish span).forget = s.forget.enter g t m finish span := by
  unfold enter
  dsimp only
  split
  · split
    · rw [← flushTo_forget]; rfl
    · rw [← flushTo_forget]; rfl
  · rw [← flushTo_forget]; rfl

theorem closeEnded_forget (span : Span) :
    (s.closeEnded g t span).forget = s.forget.closeEnded g t span := by
  have hpop (i : Nat) := pop_forget (s.flushTo g t i) i .matched
  simp only [flushTo_forget] at hpop
  unfold closeEnded
  dsimp only
  rw [show s.forget.top.mode = s.top.mode from rfl]
  split
  · rw [← hpop]; rfl
  split
  · rw [← hpop]
    split <;> rfl
  · split
    · rename_i scope _
      rw [← flushTo_forget]
      exact congrArg (fun s : State => { s with flushed := span.stop, position := span.stop })
        (pop_forget { s.flushTo g t span.start with
          log := (s.flushTo g t span.start).log.delimiter span scope } span.stop .matched)
    · rw [← hpop]; rfl

theorem finish_forget (level : Nat) (span : Span) :
    (s.finish g t level span).forget = s.forget.finish g t level span := by
  rw [finish_eq, finish_eq]
  dsimp only
  rw [cascade_forget, ← below_length_forget, closeEnded_forget, ← closeInner_forget]
  rfl

theorem opening_forget (id : Nat) (finish : Option Matcher) (span : Span) :
    (s.opening g t id finish span).forget = s.forget.opening g t id finish span := by
  have hnote : (s.noteBegin g id span).forget = s.forget.noteBegin g id span := by
    unfold noteBegin
    dsimp only
    split <;> rfl
  unfold opening
  rw [← hnote, ← enter_forget]
  rfl

theorem closeOpened_forget (id : Nat) (span : Span) :
    (s.closeOpened g t id span).forget = s.forget.closeOpened g t id span := by
  unfold closeOpened
  dsimp only
  rw [cascade_forget, ← below_length_forget, pop_forget, flushTo_forget]

/-- A begin does not look at what is remembered. -/
theorem begin_forget (id index : Nat) (span : Span) :
    s.forget.begin g t id index span = (s.begin g t id index span).map forget := by
  rw [begin_eq, begin_eq]
  cases (g.mode id).variants[index]? with
  | none => rfl
  | some v =>
    dsimp only
    cases endMatcher t v span with
    | error e => rfl
    | ok finish =>
      refine congrArg Except.ok ?_
      unfold beginWith
      split
      · rw [closeOpened_forget, opening_forget]
      · rw [opening_forget]

theorem finishInput_forget : (s.finishInput g t).forget = s.forget.finishInput g t := by
  rw [finishInput, finishInput, popAll_forget, flushTo_forget, below_length_forget]

theorem recover_forget (i : Nat) : (s.recover g t i).forget = s.forget.recover g t i := by
  unfold recover
  dsimp only
  rw [below_length_forget, ← flushTo_forget, ← popAll_forget]
  rfl

end moves
end State

/-! ## The whole scan -/

/-- From a state that a scan comes to, both scans return the same. -/
theorem scan_eq_scanAfresh {g : Grammar} {t : Text} {policy : IllegalPolicy} (hg : g.Numbered)
    {steps : Nat} {s : State} (h : Reachable g t s) :
    scan g t policy steps s = scanAfresh g t policy steps s.forget := by
  induction steps generalizing s with
  | zero => rw [scan, scanAfresh, ← State.finishInput_forget]; rfl
  | succ steps ih =>
    have hstep := nextStep_eq_arbitrate hg h
    have hforget := nextStep_forget (g := g) (t := t) (s := s)
    rw [scan, scanAfresh, arbitrate_forget, ← hstep]
    cases hnext : nextStep g t s with
    | mk step s₁ =>
      rw [hnext] at hforget
      rw [← hforget]
      cases step with
      | begin id index span =>
        dsimp only
        rw [State.begin_forget]
        cases hbegin : s₁.begin g t id index span with
        | error e => rfl
        | ok s₂ => exact ih (h.tail (.begin hnext hbegin))
      | finish level span =>
        dsimp only
        rw [← State.finish_forget]
        exact ih (h.tail (.finish hnext))
      | illegal i =>
        dsimp only
        rw [← State.recover_forget]
        rfl
      | done =>
        dsimp only
        rw [← State.finishInput_forget]
        rfl

end Scan

/-- The tokens of a text, from a scan that remembers nothing. -/
def Grammar.tokenizeAfresh (g : Grammar) (policy : IllegalPolicy) (source : String) :
    Except Error Tokenization :=
  let t := Text.ofString source
  Scan.scanAfresh g t policy (Scan.stepBound t.size g.modes.size) (.initial g)

/-- Remembering what searches have found changes nothing: the next step of every state that a scan
comes to is the one decided afresh, and the scan returns what a scan without a memory does. -/
theorem caching_preserves_scan {d : GrammarDef} {g : Grammar} {source : String}
    (hd : Grammar.compile d = .ok g) :
    (∀ s, Scan.Reachable g (.ofString source) s →
      (Scan.nextStep g (.ofString source) s).1 = Scan.arbitrate g (.ofString source) s) ∧
      ∀ policy, g.tokenize policy source = g.tokenizeAfresh policy source := by
  have hg := Grammar.compile_numbered hd
  refine ⟨fun s hs => Scan.nextStep_eq_arbitrate hg hs, fun policy => ?_⟩
  exact Scan.scan_eq_scanAfresh hg .refl

theorem caching_preserves_scan_parentheses :
    Grammar.compile parenthesesDef = .ok parentheses ∧
      parentheses.tokenize .abort "é(x)" = parentheses.tokenizeAfresh .abort "é(x)" :=
  ⟨compile_eq_parentheses, (caching_preserves_scan compile_eq_parentheses).2 .abort⟩

end Tinct
