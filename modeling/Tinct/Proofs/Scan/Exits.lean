import Tinct.Proofs.Scan.Classification
import Tinct.Proofs.Scan.Recovery

/-!
# What a step writes of regions

Among the events of a scan, those at which regions open and close can be told from the steps alone:

* `boundaries`: the enters and exits among events, which decide what is open
  (`openBehind_boundaries`);
* `exitsAlong`, `exitsOfEnd`: the exits of the regions that close at one end, innermost first;
* `State.cascade_boundaries`, `State.finish_boundaries`, `State.begin_boundaries`: they are what
  regions that are taken along, an end and a begin write.
-/

namespace Tinct

/-- Whether a region opens or closes at an event. -/
def Event.isBoundary : Event → Bool
  | token _ => false
  | enter _ _ _ | exit _ _ _ _ => true

/-- The enters and exits among events. -/
def boundaries (es : List Event) : List Event := es.filter Event.isBoundary

@[simp] theorem boundaries_append (es fs : List Event) :
    boundaries (es ++ fs) = boundaries es ++ boundaries fs :=
  List.filter_append es fs

@[simp] theorem boundaries_reverse (es : List Event) :
    boundaries es.reverse = (boundaries es).reverse :=
  List.filter_reverse

@[simp] theorem boundaries_boundaries (es : List Event) :
    boundaries (boundaries es) = boundaries es := by
  simp [boundaries]

theorem boundaries_map (f : Nat → Nat) (es : List Event) :
    boundaries (es.map (·.mapOffsets f)) = (boundaries es).map (·.mapOffsets f) := by
  have hcomp : Event.isBoundary ∘ (·.mapOffsets f) = Event.isBoundary := by
    funext e
    cases e <;> rfl
  rw [boundaries, List.filter_map, hcomp, boundaries]

@[simp] theorem boundaries_exit (o : OpenRegion) (stop : Nat) (closure : Closure)
    (es : List Event) :
    boundaries (o.exit stop closure :: es) = o.exit stop closure :: boundaries es := rfl

/-- What is open behind events depends on the enters and exits among them only. -/
@[simp] theorem openBehind_boundaries (es : List Event) :
    openBehind (boundaries es) = openBehind es := by
  have hfold (os : List OpenRegion) :
      (boundaries es).foldl Event.reopen os = es.foldl Event.reopen os := by
    induction es generalizing os with
    | nil => rfl
    | cons e es ih =>
      cases e with
      | token t => exact ih os
      | enter mode scope offset => exact ih _
      | exit mode scope span closure => exact ih _
  exact hfold []

/-- Behind the exits of the innermost regions the others are open. -/
theorem foldl_reopen_exits (os rest : List OpenRegion) (stop : Nat) (closure : Closure) :
    (os.map (·.exit stop closure)).foldl Event.reopen (os ++ rest) = rest := by
  induction os with
  | nil => rfl
  | cons o os ih => exact ih

/-! ## The exits of one end -/

/-- Where a region starts whose begin lexeme is `lexeme`. -/
def ModeFlags.regionStart (f : ModeFlags) (lexeme : Span) : Nat :=
  if f.excludeBegin then lexeme.stop else lexeme.start

/-- Where a region stops whose end lexeme is `lexeme`. -/
def ModeFlags.regionStop (f : ModeFlags) (lexeme : Span) : Nat :=
  if f.returnEnd || f.excludeEnd then lexeme.start else lexeme.stop

/-- Where a scan goes on behind the end lexeme `lexeme` of a region. -/
def ModeFlags.resumeAt (f : ModeFlags) (lexeme : Span) : Nat :=
  if f.returnEnd then lexeme.start else lexeme.stop

/-- The exits, at `i`, of those among the regions `os` that a region of the mode `id` takes along
which has closed inside them. -/
def exitsAlong (g : Grammar) (i : Nat) : Nat → List OpenRegion → List Event
  | _, [] => []
  | id, o :: os =>
    if (g.mode id).flags.endsParent then o.exit i .byChild :: exitsAlong g i o.mode os else []

/-- The exits that an end at `lexeme` brings about where `os` are open. It is the end of the region
with `level` others inside it. -/
def exitsOfEnd (g : Grammar) (lexeme : Span) : Nat → List OpenRegion → List Event
  | _, [] => []
  | 0, o :: os =>
    o.exit ((g.mode o.mode).flags.regionStop lexeme) .matched ::
      exitsAlong g ((g.mode o.mode).flags.resumeAt lexeme) o.mode os
  | level + 1, o :: os => o.exit lexeme.start .withParent :: exitsOfEnd g lexeme level os

namespace Scan

/-! ## Text writes no enter and no exit -/

namespace Log

@[simp] theorem token_boundaries (l : Log) (tok : Token) :
    boundaries (l.token tok).events = boundaries l.events := by
  obtain ⟨-, h⟩ | ⟨-, h⟩ | ⟨last, rest, hevents, -, -, -, h⟩ := l.token_cases tok
  · rw [h]
  · rw [h]
    rfl
  · rw [h, hevents]
    rfl

theorem text_boundaries (g : Grammar) (m : Mode) (scope : Option Scope) (t : Text) (span : Span)
    (l : Log) : boundaries (l.text g m scope t span).events = boundaries l.events :=
  text_induction (P := fun l' => boundaries l'.events = boundaries l.events) rfl span
    (fun l' _ h => (token_boundaries l' _).trans h) fun _ _ _ h _ _ => h

end Log

namespace State

/-- The enters and exits that have been written, first to last. -/
def boundaries (s : State) : List Event := Tinct.boundaries s.log.events.reverse

variable {g : Grammar} {t : Text} {s s' : State}

theorem boundaries_congr (h : Tinct.boundaries s'.log.events = Tinct.boundaries s.log.events) :
    s'.boundaries = s.boundaries := by
  rw [boundaries, boundaries, boundaries_reverse, boundaries_reverse, h]

@[simp] theorem flushTo_boundaries (i : Nat) : (s.flushTo g t i).boundaries = s.boundaries := by
  unfold flushTo
  split
  · rfl
  · exact boundaries_congr (Log.text_boundaries ..)

@[simp] theorem delimiter_boundaries (span : Span) (scope : Scope) :
    boundaries { s with log := s.log.delimiter span scope } = s.boundaries :=
  boundaries_congr (Log.token_boundaries ..)

/-! ## Regions that close -/

/-- The innermost region closes, and its exit is written. -/
theorem pop_opened {o : OpenRegion} {os : List OpenRegion} (h : s.opened = o :: os) (stop : Nat)
    (closure : Closure) :
    (s.pop stop closure).opened = os ∧
      (s.pop stop closure).boundaries = s.boundaries ++ [o.exit stop closure] := by
  obtain ⟨hb, -⟩ | ⟨frame, below, hb, hp⟩ := s.pop_cases stop closure
  · rw [opened_eq_nil hb] at h
    cases h
  · rw [opened_cons hb] at h
    obtain ⟨rfl, rfl⟩ := List.cons.inj h
    rw [hp]
    exact ⟨rfl, by simp [boundaries, Log.event, Tinct.boundaries, OpenRegion.exit,
      Event.isBoundary]⟩

theorem pop_flushTo_opened {o : OpenRegion} {os : List OpenRegion} (h : s.opened = o :: os)
    (i stop : Nat) (closure : Closure) :
    ((s.flushTo g t i).pop stop closure).opened = os ∧
      ((s.flushTo g t i).pop stop closure).boundaries = s.boundaries ++ [o.exit stop closure] := by
  have hflushed : (s.flushTo g t i).opened = o :: os := by rw [flushTo_opened, h]
  obtain ⟨hopened, hboundaries⟩ := pop_opened hflushed stop closure
  exact ⟨hopened, by rw [hboundaries, flushTo_boundaries]⟩

/-- The innermost frame is that of the innermost open region. -/
theorem top_region {o : OpenRegion} {os : List OpenRegion} (h : s.opened = o :: os) :
    s.below ≠ [] ∧ s.top.region = o := by
  rcases hb : s.below with _ | ⟨frame, below⟩
  · rw [opened_eq_nil hb] at h
    cases h
  · rw [opened_cons hb] at h
    exact ⟨List.cons_ne_nil _ _, (List.cons.inj h).1⟩

theorem below_eq_nil (h : s.opened = []) : s.below = [] := by
  by_contra hb
  obtain ⟨frame, below, hbelow⟩ := List.exists_cons_of_ne_nil hb
  rw [opened_cons hbelow] at h
  cases h

/-- Where a region is open there is one to close. -/
theorem pop?_eq_some (h : s.below ≠ []) (stop : Nat) (closure : Closure) :
    s.pop? stop closure = some (s.pop stop closure) := by
  rw [pop]
  cases hpop : s.pop? stop closure with
  | none => exact absurd (pop?_eq_none_iff.mp hpop) h
  | some s' => rfl

theorem stacked_pop (hs : Stacked g s.frames) (hb : s.below ≠ []) (i stop : Nat)
    (closure : Closure) : Stacked g ((s.flushTo g t i).pop stop closure).frames := by
  obtain ⟨frame, below, hbelow⟩ := List.exists_cons_of_ne_nil hb
  rw [pop_frames, flushTo_below, if_neg hb, hbelow]
  rw [frames, hbelow] at hs
  exact hs.of_cons

/-- The mode of the innermost region stands at its place. -/
theorem mode_top {o : OpenRegion} {os : List OpenRegion} (hs : Stacked g s.frames)
    (h : s.opened = o :: os) : s.top.mode = g.mode o.mode := by
  obtain ⟨hb, rfl⟩ := top_region h
  obtain ⟨frame, below, hbelow⟩ := List.exists_cons_of_ne_nil hb
  rw [frames, hbelow] at hs
  cases hs with
  | region _ hmode _ => exact hmode

/-- A region that has closed takes those around it along. -/
theorem cascade_boundaries {n id : Nat} (hs : Stacked g s.frames) (hn : s.below.length ≤ n) :
    (s.cascade g t n (g.mode id)).boundaries =
      s.boundaries ++ exitsAlong g s.position id s.opened := by
  induction n generalizing s id with
  | zero =>
    have hb : s.below = [] := List.eq_nil_of_length_eq_zero (by omega)
    rw [opened_eq_nil hb, exitsAlong, List.append_nil, cascade]
  | succ n ih =>
    rw [cascade]
    dsimp only
    by_cases hflag : (g.mode id).flags.endsParent = true
    · rw [if_pos hflag, flushTo_position]
      rcases hopened : s.opened with _ | ⟨o, os⟩
      · have hpop : (s.flushTo g t s.position).pop? s.position .byChild = none := by
          rw [pop?_eq_none_iff, flushTo_below, below_eq_nil hopened]
        rw [hpop, exitsAlong, List.append_nil, flushTo_boundaries]
      · obtain ⟨hb, -⟩ := top_region hopened
        obtain ⟨hopened', hboundaries⟩ :=
          pop_flushTo_opened (g := g) (t := t) hopened s.position s.position .byChild
        have hstacked := stacked_pop (t := t) hs hb s.position s.position .byChild
        have hposition : ((s.flushTo g t s.position).pop s.position .byChild).position =
            s.position := by rw [pop_position, flushTo_position]
        have hbelow : ((s.flushTo g t s.position).pop s.position .byChild).below.length ≤ n := by
          rw [pop_below, flushTo_below, List.length_tail]
          omega
        have hpop := pop?_eq_some ((flushTo_below g t s.position s).symm ▸ hb) s.position .byChild
        have hrest : (((s.flushTo g t s.position).pop s.position .byChild).cascade g t n
            (g.mode o.mode)).boundaries = _ := ih hstacked hbelow
        rw [hpop]
        dsimp only
        rw [mode_top hs hopened, hrest, hposition, hboundaries, hopened', exitsAlong, if_pos hflag,
          List.append_assoc, List.singleton_append]
    · rw [if_neg hflag]
      cases s.opened with
      | nil => rw [exitsAlong, List.append_nil]
      | cons o os => rw [exitsAlong, if_neg hflag, List.append_nil]

/-- The innermost region closes at its end lexeme. -/
theorem closeEnded_boundaries {o : OpenRegion} {os : List OpenRegion} (h : s.opened = o :: os)
    (span : Span) :
    (s.closeEnded g t span).opened = os ∧
      (s.closeEnded g t span).boundaries =
        s.boundaries ++ [o.exit (s.top.mode.flags.regionStop span) .matched] ∧
      (s.closeEnded g t span).position = s.top.mode.flags.resumeAt span := by
  have hpop (i : Nat) := pop_flushTo_opened (g := g) (t := t) h i i .matched
  unfold closeEnded ModeFlags.regionStop ModeFlags.resumeAt
  dsimp only
  by_cases hreturn : s.top.mode.flags.returnEnd = true
  · simp only [hreturn, if_true, Bool.true_or]
    exact ⟨(hpop span.start).1, (hpop span.start).2, trivial⟩
  simp only [Bool.eq_false_iff.mpr hreturn, Bool.false_eq_true, if_false, Bool.false_or]
  by_cases hexclude : s.top.mode.flags.excludeEnd = true
  · simp only [hexclude, if_true]
    split
    · exact ⟨(hpop span.start).1, (delimiter_boundaries span _).trans (hpop span.start).2, trivial⟩
    · exact ⟨(hpop span.start).1, (hpop span.start).2, trivial⟩
  · simp only [Bool.eq_false_iff.mpr hexclude, Bool.false_eq_true, if_false]
    split
    · rename_i scope _
      have hdelimiter : opened { s.flushTo g t span.start with
          log := (s.flushTo g t span.start).log.delimiter span scope } = o :: os := by
        exact (flushTo_opened g t span.start s).trans h
      obtain ⟨hopened, hboundaries⟩ := pop_opened hdelimiter span.stop .matched
      rw [delimiter_boundaries, flushTo_boundaries] at hboundaries
      exact ⟨hopened, hboundaries, rfl⟩
    · exact ⟨(hpop span.stop).1, (hpop span.stop).2, rfl⟩

/-- An end closes the inner regions, then its own, and then those that are taken along. -/
theorem finish_boundaries {level : Nat} {span : Span} (hs : Stacked g s.frames)
    (hlevel : level < s.opened.length) :
    (s.finish g t level span).boundaries = s.boundaries ++ exitsOfEnd g span level s.opened := by
  induction level generalizing s with
  | zero =>
    obtain ⟨o, os, h⟩ := List.exists_cons_of_length_pos hlevel
    obtain ⟨hb, -⟩ := top_region h
    obtain ⟨hopened, hboundaries, hposition⟩ :=
      closeEnded_boundaries (g := g) (t := t) h span
    have hstacked : Stacked g (s.closeEnded g t span).frames := by
      have hpop := stacked_pop (t := t) hs hb 0 0 .matched
      rw [pop_frames, flushTo_below, if_neg hb] at hpop
      rwa [closeEnded_frames, if_neg hb]
    rw [finish_eq]
    dsimp only [closeInner]
    rw [mode_top hs h] at hboundaries hposition ⊢
    rw [cascade_boundaries hstacked (Nat.le_refl _), hboundaries, hposition, hopened, h, exitsOfEnd,
      List.append_assoc, List.singleton_append]
  | succ level ih =>
    obtain ⟨o, os, h⟩ := List.exists_cons_of_length_pos (Nat.zero_lt_of_lt hlevel)
    obtain ⟨hb, -⟩ := top_region h
    obtain ⟨hopened, hboundaries⟩ :=
      pop_flushTo_opened (g := g) (t := t) h span.start span.start .withParent
    have hrest := ih (stacked_pop (t := t) hs hb _ _ _)
      (by rw [hopened]; rw [h, List.length_cons] at hlevel; omega)
    have hstep : s.finish g t (level + 1) span =
        ((s.flushTo g t span.start).pop span.start .withParent).finish g t level span := rfl
    rw [hstep, hrest, hboundaries, hopened, h, exitsOfEnd, List.append_assoc,
      List.singleton_append]

/-! ## Regions that open -/

theorem opening_boundaries {id : Nat} {finish : Option Matcher} {span : Span}
    (hid : (g.mode id).id = id) :
    (s.opening g t id finish span).boundaries = s.boundaries ++
      [.enter id (g.mode id).scope ((g.mode id).flags.regionStart span)] := by
  have hnote : (s.noteBegin g id span).boundaries = s.boundaries := by
    refine boundaries_congr ?_
    rw [noteBegin_log, Log.scoreMode_events]
  have hpush (m : Mode) (start : Nat) (s : State) :
      (s.push m finish start).boundaries = s.boundaries ++ [.enter m.id m.scope start] := by
    simp [boundaries, push, Log.event, Tinct.boundaries, Event.isBoundary]
  have henter : (s.opening g t id finish span).boundaries =
      (enter g t (g.mode id) finish span (s.noteBegin g id span)).boundaries := rfl
  rw [henter, ← hnote]
  unfold enter ModeFlags.regionStart
  dsimp only
  split
  · rename_i scope _
    split
    · refine (hpush ..).trans ?_
      rw [delimiter_boundaries, flushTo_boundaries, hid]
    · refine (delimiter_boundaries span scope).trans ((hpush ..).trans ?_)
      rw [flushTo_boundaries, hid]
  · refine (hpush ..).trans ?_
    rw [flushTo_boundaries, hid]

/-- A begin opens a region. The region of a variant that ends right away closes as well, and those
that it takes along. -/
theorem begin_boundaries {id index : Nat} {span : Span} (hid : (g.mode id).id = id)
    (hs : Stacked g s.frames) (hvariant : (g.mode id).variants[index]? ≠ none)
    (h : s.begin g t id index span = .ok s') :
    ∃ v finish, (g.mode id).variants[index]? = some v ∧ endMatcher t v span = .ok finish ∧
      (v.finish = .immediate ∧ s'.boundaries = s.boundaries ++
          (.enter id (g.mode id).scope ((g.mode id).flags.regionStart span) ::
            (OpenRegion.mk id (g.mode id).scope ((g.mode id).flags.regionStart span)).exit span.stop
              .matched :: exitsAlong g span.stop id s.opened) ∨
        s' = s.opening g t id finish span) := by
  rw [begin_eq] at h
  split at h
  · exact absurd ‹_› hvariant
  rename_i v hv
  cases he : endMatcher t v span with
  | error e => rw [he] at h; cases h
  | ok finish =>
    rw [he] at h
    cases h
    refine ⟨v, finish, hv, he, ?_⟩
    unfold beginWith
    split
    · rename_i himmediate
      have hframes := opening_frames (g := g) (t := t) (s := s) id finish span
      have hopened : (s.opening g t id finish span).opened = _ := opening_opened hid
      have hstacked : Stacked g (s.opening g t id finish span).frames := by
        rw [hframes]
        exact .region hs (congrArg g.mode hid.symm) rfl
      obtain ⟨hb, -⟩ := top_region hopened
      obtain ⟨hopened', hboundaries⟩ :=
        pop_flushTo_opened (g := g) (t := t) hopened span.stop span.stop .matched
      have hposition : (((s.opening g t id finish span).flushTo g t span.stop).pop span.stop
          .matched).position = span.stop := by
        rw [pop_position, flushTo_position]
        rfl
      refine .inl ⟨himmediate, ?_⟩
      rw [closeOpened, cascade_boundaries (stacked_pop hstacked hb _ _ _) (Nat.le_refl _),
        hposition, hboundaries, hopened', opening_boundaries hid]
      simp [ModeFlags.regionStart]
    · exact .inr rfl

end State
end Scan
end Tinct
