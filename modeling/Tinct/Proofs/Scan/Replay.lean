import Tinct.Proofs.Scan.Termination
import Tinct.Proofs.Token.OpenRegions

/-!
# What a scan has written

What a scan writes depends on its frames only through the regions that are open. A log is told
again, write by write, from these alone:

* `Replays`: the logs that come about write by write, with the regions that are open behind them;
* `Stacked`: the frames of a scan have the modes and the scopes that the open regions give them;
* `Trace.retold`, `Ends.exists_replays`: the log of each state that a trace leads to comes about
  like that, and so does the log of what the scan ends with.
-/

namespace Tinct.Scan

/-! ## Writing where regions are open -/

namespace Log

/-- The text `span` is written where `os` are open. -/
def textIn (g : Grammar) (t : Text) (os : List OpenRegion) (span : Span) (l : Log) : Log :=
  l.text g (g.innermost os) (textScope os) t span

/-- A region of the mode `id` is about to open where `os` are open: its mode is scored, and the text
that has waited is written. -/
def announce (g : Grammar) (t : Text) (os : List OpenRegion) (id : Nat) (waits : Span) (l : Log) :
    Log :=
  (l.scoreMode (g.mode id)).textIn g t os waits

end Log

/-! ## Logs write by write -/

section replays
variable (g : Grammar) (t : Text) (begun : Nat → Span → Prop) (ended : Nat → Nat → Span → Prop)

/-- Logs as they come about, with the regions that are open behind them, innermost first. The begin
lexemes of regions are among `begun`, each with its mode; the end lexemes are among `ended`, each
with the mode and the start of its region. -/
inductive Replays : List OpenRegion → Log → Prop where
  | start : Replays [] {}
  | text {os : List OpenRegion} {l : Log} (h : Replays os l) (span : Span) :
      Replays os (l.textIn g t os span)
  | enter {os : List OpenRegion} {l : Log} {id : Nat} (h : Replays os l)
      (hid : (g.mode id).id = id) (waits : Span) (start : Nat) :
      Replays (⟨id, (g.mode id).scope, start⟩ :: os)
        ((l.announce g t os id waits).event (.enter id (g.mode id).scope start))
  /-- The begin lexeme is the first text of the region. -/
  | enterWith {os : List OpenRegion} {l : Log} {id : Nat} {span : Span} {scope : Scope}
      (h : Replays os l) (hid : (g.mode id).id = id) (hbegun : begun id span)
      (hscope : (g.mode id).beginScope = some scope)
      (hexclude : (g.mode id).flags.excludeBegin = false) (waits : Span) :
      Replays (⟨id, (g.mode id).scope, span.start⟩ :: os)
        (((l.announce g t os id waits).event
          (.enter id (g.mode id).scope span.start)).delimiter span scope)
  /-- The begin lexeme stays in front of the region. -/
  | enterBehind {os : List OpenRegion} {l : Log} {id : Nat} {span : Span} {scope : Scope}
      (h : Replays os l) (hid : (g.mode id).id = id) (hbegun : begun id span)
      (hscope : (g.mode id).beginScope = some scope)
      (hexclude : (g.mode id).flags.excludeBegin = true) (waits : Span) :
      Replays (⟨id, (g.mode id).scope, span.stop⟩ :: os)
        (((l.announce g t os id waits).delimiter span scope).event
          (.enter id (g.mode id).scope span.stop))
  | exit {o : OpenRegion} {os : List OpenRegion} {l : Log} (h : Replays (o :: os) l) (stop : Nat)
      (closure : Closure) :
      Replays os (l.event (.exit o.mode o.scope ⟨o.start, stop⟩ closure))
  /-- The end lexeme is the last text of the region. -/
  | exitWith {o : OpenRegion} {os : List OpenRegion} {l : Log} {span : Span} {scope : Scope}
      (h : Replays (o :: os) l) (hended : ended o.mode o.start span)
      (hscope : (g.mode o.mode).endScope = some scope)
      (hreturn : (g.mode o.mode).flags.returnEnd = false)
      (hexclude : (g.mode o.mode).flags.excludeEnd = false) :
      Replays os ((l.delimiter span scope).event
        (.exit o.mode o.scope ⟨o.start, span.stop⟩ .matched))
  /-- The end lexeme stays behind the region. -/
  | exitBefore {o : OpenRegion} {os : List OpenRegion} {l : Log} {span : Span} {scope : Scope}
      (h : Replays (o :: os) l) (hended : ended o.mode o.start span)
      (hscope : (g.mode o.mode).endScope = some scope)
      (hreturn : (g.mode o.mode).flags.returnEnd = false)
      (hexclude : (g.mode o.mode).flags.excludeEnd = true) :
      Replays os ((l.event (.exit o.mode o.scope ⟨o.start, span.start⟩ .matched)).delimiter
        span scope)
  /-- What is left of a text is plain. -/
  | rest {l : Log} (h : Replays [] l) (span : Span) : Replays [] (l.raw span)

end replays

section
variable {g : Grammar} {t : Text} {begun begun' : Nat → Span → Prop}
  {ended ended' : Nat → Nat → Span → Prop} {os : List OpenRegion} {l : Log}

theorem Replays.mono (h : Replays g t begun ended os l)
    (hbegun : ∀ id span, begun id span → begun' id span)
    (hended : ∀ id start span, ended id start span → ended' id start span) :
    Replays g t begun' ended' os l := by
  induction h with
  | start => exact .start
  | text _ span ih => exact .text ih span
  | enter _ hid waits start ih => exact .enter ih hid waits start
  | enterWith _ hid hb hscope hexclude waits ih =>
    exact .enterWith ih hid (hbegun _ _ hb) hscope hexclude waits
  | enterBehind _ hid hb hscope hexclude waits ih =>
    exact .enterBehind ih hid (hbegun _ _ hb) hscope hexclude waits
  | exit _ stop closure ih => exact .exit ih stop closure
  | exitWith _ he hscope hreturn hexclude ih =>
    exact .exitWith ih (hended _ _ _ he) hscope hreturn hexclude
  | exitBefore _ he hscope hreturn hexclude ih =>
    exact .exitBefore ih (hended _ _ _ he) hscope hreturn hexclude
  | rest _ span ih => exact .rest ih span

/-- Open regions have the scopes of their modes. -/
theorem Replays.scope_eq (h : Replays g t begun ended os l) :
    ∀ o ∈ os, o.scope = (g.mode o.mode).scope := by
  induction h with
  | start => exact nofun
  | text _ _ ih => exact ih
  | enter _ _ _ _ ih => exact List.forall_mem_cons.mpr ⟨rfl, ih⟩
  | enterWith _ _ _ _ _ _ ih => exact List.forall_mem_cons.mpr ⟨rfl, ih⟩
  | enterBehind _ _ _ _ _ _ ih => exact List.forall_mem_cons.mpr ⟨rfl, ih⟩
  | exit _ _ _ ih => exact (List.forall_mem_cons.mp ih).2
  | exitWith _ _ _ _ _ ih => exact (List.forall_mem_cons.mp ih).2
  | exitBefore _ _ _ _ _ ih => exact (List.forall_mem_cons.mp ih).2
  | rest _ _ ih => exact ih

end

/-! ## Frames and open regions -/

/-- The region of a frame. -/
def Frame.region (f : Frame) : OpenRegion := ⟨f.mode.id, f.mode.scope, f.start⟩

/-- Frames of modes that stand at their places in the grammar, each with its own scope or, if it has
none, with that of the frame around it. -/
inductive Stacked (g : Grammar) : List Frame → Prop where
  | root {f : Frame} (hmode : f.mode = g.root) (hscope : f.textScope = none) : Stacked g [f]
  | region {f f' : Frame} {fs : List Frame} (h : Stacked g (f' :: fs))
      (hmode : f.mode = g.mode f.mode.id) (hscope : f.textScope = f.mode.scope.or f'.textScope) :
      Stacked g (f :: f' :: fs)

/-- The innermost frame has the mode and the scope that the open regions give it. -/
theorem Stacked.head {g : Grammar} {fs : List Frame} (h : Stacked g fs) :
    ∀ f ∈ fs.head?, f.mode = g.innermost (fs.dropLast.map Frame.region) ∧
      f.textScope = textScope (fs.dropLast.map Frame.region) := by
  induction h with
  | root hmode hscope =>
    rintro _ ⟨⟩
    exact ⟨hmode, hscope⟩
  | @region f f' fs _ hmode hscope ih =>
    rintro _ ⟨⟩
    obtain ⟨-, hscope'⟩ := ih f' rfl
    refine ⟨hmode, ?_⟩
    rw [hscope, hscope', List.dropLast_cons_cons, List.map_cons, textScope_cons]
    rfl

theorem stacked_map_forget {g : Grammar} {fs : List Frame} :
    Stacked g (fs.map Frame.forget) ↔ Stacked g fs := by
  induction fs with
  | nil => exact Iff.rfl
  | cons f fs ih =>
    cases fs with
    | nil =>
      constructor
      · rintro (⟨hmode, hscope⟩ | _)
        exact .root hmode hscope
      · rintro (⟨hmode, hscope⟩ | _)
        exact .root hmode hscope
    | cons f' fs =>
      constructor
      · rintro (_ | ⟨h, hmode, hscope⟩)
        exact .region (ih.mp h) hmode hscope
      · rintro (_ | ⟨h, hmode, hscope⟩)
        exact .region (ih.mpr h) hmode hscope

theorem Stacked.of_cons {g : Grammar} {f f' : Frame} {fs : List Frame}
    (h : Stacked g (f :: f' :: fs)) : Stacked g (f' :: fs) := by
  cases h with
  | region h _ _ => exact h

namespace State
variable {g : Grammar} {t : Text} {begun begun' : Nat → Span → Prop}
  {ended ended' : Nat → Nat → Span → Prop} {s : State}

/-- A state whose log can be told again from the open regions. -/
structure Retold (g : Grammar) (t : Text) (begun : Nat → Span → Prop)
    (ended : Nat → Nat → Span → Prop) (s : State) : Prop where
  replays : Replays g t begun ended s.opened s.log
  stacked : Stacked g s.frames

theorem Retold.mono (h : s.Retold g t begun ended)
    (hbegun : ∀ id span, begun id span → begun' id span)
    (hended : ∀ id start span, ended id start span → ended' id start span) :
    s.Retold g t begun' ended' :=
  ⟨h.replays.mono hbegun hended, h.stacked⟩

theorem Retold.top_mode (h : s.Retold g t begun ended) : s.top.mode = g.innermost s.opened :=
  (h.stacked.head s.top rfl).1

theorem Retold.top_textScope (h : s.Retold g t begun ended) :
    s.top.textScope = textScope s.opened :=
  (h.stacked.head s.top rfl).2

theorem initial_retold (g : Grammar) (t : Text) (begun : Nat → Span → Prop)
    (ended : Nat → Nat → Span → Prop) : (initial g).Retold g t begun ended :=
  ⟨.start, .root rfl rfl⟩

theorem forget_retold : s.forget.Retold g t begun ended ↔ s.Retold g t begun ended := by
  constructor
  · rintro ⟨hreplays, hstacked⟩
    rw [forget_opened] at hreplays
    rw [forget_frames] at hstacked
    exact ⟨hreplays, stacked_map_forget.mp hstacked⟩
  · rintro ⟨hreplays, hstacked⟩
    refine ⟨?_, ?_⟩
    · rw [forget_opened]
      exact hreplays
    · rw [forget_frames]
      exact stacked_map_forget.mpr hstacked

/-! ## What the moves write -/

/-- Waiting text is written, which may be none. -/
theorem exists_flushTo_log (g : Grammar) (t : Text) (i : Nat) (s : State) :
    ∃ span, (s.flushTo g t i).log = s.log.text g s.top.mode s.top.textScope t span := by
  unfold flushTo
  split
  · exact ⟨⟨i, i⟩, by simp [Log.text, Span.isEmpty]⟩
  · exact ⟨_, rfl⟩

theorem flushTo_opened (g : Grammar) (t : Text) (i : Nat) (s : State) :
    (s.flushTo g t i).opened = s.opened := by
  rw [opened, opened, flushTo_frames]

theorem flushTo_retold (i : Nat) (h : s.Retold g t begun ended) :
    (s.flushTo g t i).Retold g t begun ended := by
  refine ⟨?_, by rw [flushTo_frames]; exact h.stacked⟩
  obtain ⟨span, hlog⟩ := exists_flushTo_log g t i s
  rw [flushTo_opened, hlog, h.top_mode, h.top_textScope]
  exact h.replays.text span

theorem Retold.stacked_below (h : s.Retold g t begun ended) {frame : Frame} {below : List Frame}
    (hb : s.below = frame :: below) : Stacked g (frame :: below) := by
  have hstacked := h.stacked
  rw [frames, hb] at hstacked
  exact hstacked.of_cons

theorem pop_retold (stop : Nat) (closure : Closure) (h : s.Retold g t begun ended) :
    (s.pop stop closure).Retold g t begun ended := by
  obtain ⟨-, hp⟩ | ⟨frame, below, hb, hp⟩ := s.pop_cases stop closure
  · rwa [hp]
  · have hreplays := h.replays
    rw [opened_cons hb] at hreplays
    rw [hp]
    exact ⟨hreplays.exit stop closure, h.stacked_below hb⟩

theorem pop_flushTo_retold {i stop : Nat} {closure : Closure} (h : s.Retold g t begun ended) :
    ((s.flushTo g t i).pop stop closure).Retold g t begun ended :=
  pop_retold stop closure (flushTo_retold i h)

theorem cascade_retold {n : Nat} {closed : Mode} (h : s.Retold g t begun ended) :
    (s.cascade g t n closed).Retold g t begun ended :=
  cascade_induction g t (P := Retold g t begun ended) h fun _ hs => pop_flushTo_retold hs

theorem closeInner_retold {i levels : Nat} (h : s.Retold g t begun ended) :
    (s.closeInner g t i levels).Retold g t begun ended :=
  closeInner_induction g t (P := Retold g t begun ended) h fun _ hs => pop_flushTo_retold hs

theorem popAll_retold {stop n : Nat} {closure : Closure} (h : s.Retold g t begun ended) :
    (s.popAll stop closure n).Retold g t begun ended :=
  popAll_induction (P := Retold g t begun ended) h fun _ hs => pop_retold stop closure hs

/-- Noting a begin does not touch the stack. -/
theorem noteBegin_top (id : Nat) (span : Span) : (s.noteBegin g id span).top = s.top := by
  unfold noteBegin
  dsimp only
  split <;> rfl

theorem noteBegin_frames (id : Nat) (span : Span) :
    (s.noteBegin g id span).frames = s.frames := by
  unfold noteBegin
  dsimp only
  split <;> rfl

theorem noteBegin_log (id : Nat) (span : Span) :
    (s.noteBegin g id span).log = s.log.scoreMode (g.mode id) := by
  unfold noteBegin
  dsimp only
  split <;> rfl

/-- What has been written by the time a region opens. -/
theorem exists_noteBegin_log (id : Nat) (span : Span) (i : Nat) (h : s.Retold g t begun ended) :
    ∃ waits, ((s.noteBegin g id span).flushTo g t i).log =
      s.log.announce g t s.opened id waits := by
  obtain ⟨waits, hlog⟩ := exists_flushTo_log g t i (s.noteBegin g id span)
  refine ⟨waits, hlog.trans ?_⟩
  rw [noteBegin_top, noteBegin_log, h.top_mode, h.top_textScope]
  rfl

theorem opening_frames (id : Nat) (finish : Option Matcher) (span : Span) :
    (s.opening g t id finish span).frames =
      { mode := g.mode id, finish, textScope := (g.mode id).scope.or s.top.textScope
        start := if (g.mode id).flags.excludeBegin then span.stop
          else span.start } :: s.frames := by
  have henter := enter_frames (g := g) (t := t) (g.mode id) finish span (s.noteBegin g id span)
  rwa [noteBegin_top, noteBegin_frames] at henter

theorem opening_opened {id : Nat} {finish : Option Matcher} {span : Span}
    (hid : (g.mode id).id = id) :
    (s.opening g t id finish span).opened =
      ⟨id, (g.mode id).scope, if (g.mode id).flags.excludeBegin then span.stop else span.start⟩ ::
        s.opened := by
  rw [opened, opening_frames, frames, List.dropLast_cons_cons, List.map_cons, hid]
  rfl

/-- A region opens behind the text that has waited, and its begin lexeme is written if it has a
scope. -/
theorem opening_retold {id : Nat} {finish : Option Matcher} {span : Span}
    (hid : (g.mode id).id = id) (hbegun : begun id span) (h : s.Retold g t begun ended) :
    (s.opening g t id finish span).Retold g t begun ended := by
  constructor
  · have hlog : (s.opening g t id finish span).log =
      (enter g t (g.mode id) finish span (s.noteBegin g id span)).log := rfl
    rw [opening_opened hid, hlog]
    unfold enter
    dsimp only
    cases hscope : (g.mode id).beginScope with
    | none =>
      obtain ⟨waits, hwaits⟩ := exists_noteBegin_log id span
        (if (g.mode id).flags.excludeBegin then span.stop else span.start) h
      dsimp only [push]
      rw [hwaits, hid]
      exact h.replays.enter hid waits _
    | some scope =>
      obtain ⟨waits, hwaits⟩ := exists_noteBegin_log id span span.start h
      cases hexclude : (g.mode id).flags.excludeBegin with
      | true =>
        simp only [if_true, push]
        rw [hwaits, hid]
        exact h.replays.enterBehind hid hbegun hscope hexclude waits
      | false =>
        simp only [Bool.false_eq_true, if_false, push]
        rw [hwaits, hid]
        exact h.replays.enterWith hid hbegun hscope hexclude waits
  · rw [opening_frames]
    exact .region h.stacked (congrArg g.mode hid.symm) rfl

theorem begin_retold {id index : Nat} {span : Span} {s' : State} (hid : (g.mode id).id = id)
    (hbegun : begun id span) (hbegin : s.begin g t id index span = .ok s')
    (h : s.Retold g t begun ended) : s'.Retold g t begun ended := by
  obtain ⟨-, rfl⟩ | ⟨v, finish, -, -, rfl | rfl⟩ := begin_cases hbegin
  · exact h
  · exact cascade_retold (pop_flushTo_retold (opening_retold hid hbegun h))
  · exact opening_retold hid hbegun h

/-- The mode of an open region stands at its place. -/
theorem Retold.mode_top_id (h : s.Retold g t begun ended) (hbelow : s.below ≠ []) :
    g.mode s.top.mode.id = s.top.mode := by
  obtain ⟨frame, below, hb⟩ := List.exists_cons_of_ne_nil hbelow
  have hstacked := h.stacked
  rw [frames, hb] at hstacked
  cases hstacked with
  | region _ hmode _ => exact hmode.symm

theorem pop_of_below {frame : Frame} {below : List Frame} (hb : s.below = frame :: below)
    (stop : Nat) (closure : Closure) :
    s.pop stop closure = { s with
      log := s.log.event (.exit s.top.mode.id s.top.mode.scope ⟨s.top.start, stop⟩ closure)
      top := frame, below } := by
  simp [pop, pop?, hb]

/-- A region closes behind the text that has waited, and its end lexeme is written if it has a scope
and is not scanned again. -/
theorem closeEnded_retold {span : Span} (hbelow : s.below ≠ [])
    (hended : ended s.top.mode.id s.top.start span) (h : s.Retold g t begun ended) :
    (s.closeEnded g t span).Retold g t begun ended := by
  have hmode := h.mode_top_id hbelow
  obtain ⟨frame, below, hb⟩ := List.exists_cons_of_ne_nil hbelow
  have hpop (i stop : Nat) : ((s.flushTo g t i).pop stop .matched).Retold g t begun ended :=
    pop_flushTo_retold h
  -- the text that has waited is written and the region still open
  have hb' : (s.flushTo g t span.start).below = frame :: below := by rw [flushTo_below, hb]
  have hflushed := (flushTo_retold span.start h).replays
  rw [opened_cons hb', flushTo_top] at hflushed
  unfold closeEnded
  dsimp only
  split
  · exact ⟨(hpop span.start span.start).replays, (hpop span.start span.start).stacked⟩
  rename_i hreturn
  split
  · rename_i hexclude
    split
    · rename_i scope hscope
      refine ⟨?_, (hpop span.start span.start).stacked⟩
      rw [pop_of_below hb', flushTo_top]
      exact hflushed.exitBefore hended (by rwa [hmode]) (by simpa [hmode] using hreturn)
        (by rwa [hmode])
    · exact ⟨(hpop span.start span.start).replays, (hpop span.start span.start).stacked⟩
  · rename_i hexclude
    split
    · rename_i scope hscope
      have hp := pop_of_below (s := { s.flushTo g t span.start with
        log := (s.flushTo g t span.start).log.delimiter span scope }) hb' span.stop .matched
      rw [hp]
      refine ⟨?_, h.stacked_below hb⟩
      dsimp only
      rw [flushTo_top]
      exact hflushed.exitWith hended (by rwa [hmode]) (by simpa [hmode] using hreturn)
        (by simpa [hmode] using hexclude)
    · exact ⟨(hpop span.stop span.stop).replays, (hpop span.stop span.stop).stacked⟩

/-- Closing inner regions leaves the frames around them. -/
theorem closeInner_frames {i levels : Nat} (h : levels ≤ s.below.length) :
    (s.closeInner g t i levels).frames = s.frames.drop levels := by
  induction levels generalizing s with
  | zero => rfl
  | succ levels ih =>
    have hbelow : s.below ≠ [] := List.ne_nil_of_length_pos (by omega)
    have hpop : ((s.flushTo g t i).pop i .withParent).frames = s.below := by
      rw [pop_frames, flushTo_below, if_neg hbelow]
    rw [closeInner, ih, hpop]
    · rfl
    · rw [pop_below, flushTo_below, List.length_tail]
      omega

theorem finish_retold {level : Nat} {span : Span} (hlevel : level < s.below.length)
    (hended : ∀ f, s.frames[level]? = some f → ended f.mode.id f.start span)
    (h : s.Retold g t begun ended) : (s.finish g t level span).Retold g t begun ended := by
  have hinner : (s.closeInner g t span.start level).Retold g t begun ended := closeInner_retold h
  have hframes := closeInner_frames (g := g) (t := t) (i := span.start) hlevel.le
  have hbelow : (s.closeInner g t span.start level).below ≠ [] := by
    rw [closeInner_below]
    exact List.ne_nil_of_length_pos (by rw [List.length_drop]; omega)
  have htop : s.frames[level]? = some (s.closeInner g t span.start level).top := by
    rw [← List.head?_drop, ← hframes]
    rfl
  rw [finish_eq]
  exact cascade_retold (closeEnded_retold hbelow (hended _ htop) hinner)

end State

/-! ## What a trace has written -/

/-- One of the steps is a begin of the mode `id` at the lexeme `span`. -/
def BeginsAt (steps : List Step) (id : Nat) (span : Span) : Prop :=
  ∃ index, .begin id index span ∈ steps

/-- One of the steps of a trace ends, at the lexeme `span`, the region of the mode `id` that starts
at `start`. -/
def EndsAt (g : Grammar) (t : Text) (steps : List Step) (id start : Nat) (span : Span) : Prop :=
  ∃ level front s s' f, .finish level span :: front <:+ steps ∧ Trace g t front s ∧
    Takes g t (.finish level span) s s' ∧ s.frames[level]? = some f ∧ f.mode.id = id ∧
    f.start = start

section trace
variable {g : Grammar} {t : Text} {steps : List Step} {s s' : State}

/-- Looking for the next step writes nothing. -/
theorem State.Retold.nextStep {begun : Nat → Span → Prop} {ended : Nat → Nat → Span → Prop}
    (h : s.Retold g t begun ended) : (nextStep g t s).2.Retold g t begun ended := by
  rw [← forget_retold, nextStep_forget, forget_retold]
  exact h

/-- Looking for the next step leaves the frames as they are but for their caches. -/
theorem exists_frame_of_nextStep {level : Nat} {f : Frame}
    (h : (nextStep g t s).2.frames[level]? = some f) :
    ∃ f', s.frames[level]? = some f' ∧ f'.mode = f.mode ∧ f'.start = f.start := by
  have hforget := congrArg (·.frames[level]?) (nextStep_forget (g := g) (t := t) (s := s))
  simp only [State.forget_frames, List.getElem?_map, h] at hforget
  obtain ⟨f', hf', heq⟩ := Option.map_eq_some_iff.mp hforget.symm
  have hmode : f'.forget.mode = f.forget.mode := congrArg Frame.mode heq
  have hstart : f'.forget.start = f.forget.start := congrArg Frame.start heq
  exact ⟨f', hf', hmode, hstart⟩

/-- The log of each state that a trace leads to comes about write by write. -/
theorem Trace.retold (hg : g.Numbered) (h : Trace g t steps s) :
    s.Retold g t (BeginsAt steps) (EndsAt g t steps) := by
  induction h with
  | start => exact State.initial_retold g t _ _
  | @step steps s s' step h hstep ih =>
    have hs : s.Retold g t (BeginsAt (step :: steps)) (EndsAt g t (step :: steps)) := by
      refine ih.mono (fun id span ⟨index, hmem⟩ => ⟨index, List.mem_cons_of_mem _ hmem⟩) ?_
      rintro id start span ⟨level, front, s, s', f, hsuffix, hrest⟩
      exact ⟨level, front, s, s', f, hsuffix.trans (List.suffix_cons _ _), hrest⟩
    have hnext' := hs.nextStep
    cases step with
    | begin id index span =>
      have hid := (hstep.beginMoves hg h.reachable).mode
      cases hstep with
      | begin hnext hbegin =>
        rw [hnext] at hnext'
        exact State.begin_retold (hg.mode_id hid) ⟨index, List.mem_cons_self⟩ hbegin hnext'
    | finish level span =>
      have hstep' := hstep
      cases hstep with
      | @finish _ s₁ _ _ hnext =>
        have hlevel := (h.rooted hg).level_lt (nextStep_finish_mem hg h.reachable hnext)
        have hframes (f : Frame) (hf : (nextStep g t s).2.frames[level]? = some f) :=
          exists_frame_of_nextStep hf
        have hlength : s₁.finishes.length = s.finishes.length := by
          rw [← nextStep_finishes (g := g) (t := t) (s := s), hnext]
        rw [length_finishes, length_finishes] at hlength
        rw [hnext] at hnext'
        simp only [hnext] at hframes
        refine State.finish_retold ?_ (fun f hf => ?_) hnext'
        · simp only [State.frames, List.length_cons] at hlength
          omega
        · obtain ⟨f', hf', hmode, hstart⟩ := hframes f hf
          exact ⟨level, steps, s, _, f', List.suffix_refl _, h, hstep', hf', by rw [hmode], hstart⟩
    | illegal i => cases hstep
    | done => cases hstep

/-- What has been written up to the end of the text is reported first to last, at byte offsets. -/
theorem State.result_events {illegal : Option Nat} (h : Written [] t.size s.log.events) :
    (s.result t illegal).events = s.log.events.reverse.map (·.mapOffsets t.offset) := by
  rw [State.result]
  dsimp only
  rw [h.map_congr (fun i hi => t.offsets_getD hi) (Nat.le_refl _), List.map_reverse]

/-- The log of what a scan ends with comes about write by write. It is written up to the end of the
text, and no region is open behind it. -/
theorem Ends.exists_replays {policy : IllegalPolicy} {r : Tokenization} (hg : g.Numbered)
    (h : Trace g t steps s) (hr : Ends g t policy s (.ok r)) :
    ∃ l, Replays g t (BeginsAt steps) (EndsAt g t steps) [] l ∧ Written [] t.size l.events ∧
      r.relevance = l.relevance ∧
      r.events = l.events.reverse.map (·.mapOffsets t.offset) := by
  have hnext' := (h.retold hg).nextStep
  have haligned := State.nextStep_aligned (g := g) (State.reachable_aligned h.reachable)
  have hall {s₁ : State} (i : Nat) (closure : Closure)
      (hs₁ : s₁.Retold g t (BeginsAt steps) (EndsAt g t steps)) :
      Replays g t (BeginsAt steps) (EndsAt g t steps) []
        ((s₁.flushTo g t i).popAll i closure s₁.below.length).log := by
    have hclosed : ((s₁.flushTo g t i).popAll i closure s₁.below.length).Retold g t
        (BeginsAt steps) (EndsAt g t steps) := State.popAll_retold (State.flushTo_retold i hs₁)
    have hopened : ((s₁.flushTo g t i).popAll i closure s₁.below.length).opened = [] :=
      State.opened_eq_nil (by rw [State.popAll_below, State.flushTo_below, List.drop_length])
    exact hopened ▸ hclosed.replays
  cases hr with
  | done hnext =>
    rw [hnext] at hnext' haligned
    have hwritten := State.finishInput_written (g := g) haligned
    exact ⟨_, hall t.size .endOfInput hnext', hwritten, rfl, State.result_events hwritten⟩
  | @recovered s₁ i hnext hpolicy =>
    obtain ⟨hpos, hi⟩ := nextStep_illegal_within (reachable_recalls h.reachable) hnext
    rw [hnext] at hnext' haligned
    have hwritten := State.recover_written (g := g) (haligned.toCoveredTo.mono hpos) hi
    exact ⟨_, (hall i .illegal hnext').rest ⟨i, t.size⟩, hwritten, rfl,
      State.result_events hwritten⟩

end trace
end Tinct.Scan
