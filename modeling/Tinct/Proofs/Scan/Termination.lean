import Mathlib.Data.List.Perm.Subperm
import Mathlib.Data.List.ProdSigma
import Tinct.Proofs.Scan.Coverage
import Tinct.Proofs.Scan.Trace

/-!
# Scans end

No quantity falls with every step of a scan. A begin may be empty and an end may be scanned again,
so that the position stays where it is; but each step that does not move the position on closes a
region, or it is the only empty begin of its mode there:

* `BeginMoves`, `FinishMoves`: what a begin and an end do to the position, to the stack and to what
  is known of empty begins;
* `Trace.emptyBegins_nodup`: each mode begins with an empty match at most once at each position;
* `Trace.length_add_le`: the steps of a trace are paid for by its position and its empty begins;
* `tokenize_eq_iff`: a tokenization is what the trace of the scan ends with, so that no scan ends
  because no steps are left;
* `scan_terminates`: how many steps there are, and what each of them does.
-/

namespace Tinct

namespace Scan
namespace State

/-! ## Regions that close -/

/-- Closing the innermost region leaves the frames below it; the last frame stays. -/
theorem pop_frames (stop : Nat) (closure : Closure) (s : State) :
    (s.pop stop closure).frames = if s.below = [] then s.frames else s.below := by
  obtain ⟨hb, hp⟩ | ⟨frame, below, hb, hp⟩ := s.pop_cases stop closure
  · rw [hp, if_pos hb]
  · rw [hp, hb, if_neg (List.cons_ne_nil _ _), frames]

@[simp] theorem pop_emptyBegins (stop : Nat) (closure : Closure) (s : State) :
    (s.pop stop closure).emptyBegins = s.emptyBegins := by
  obtain ⟨-, h⟩ | ⟨_, _, -, h⟩ := s.pop_cases stop closure <;> rw [h]

@[simp] theorem flushTo_emptyBegins (g : Grammar) (t : Text) (i : Nat) (s : State) :
    (s.flushTo g t i).emptyBegins = s.emptyBegins := by
  unfold flushTo; split <;> rfl

/-- A state as it is when some of the innermost regions of `s` have closed, and none has begun. -/
structure Closes (s s' : State) : Prop where
  frames : s'.frames <:+ s.frames
  emptyBegins : s'.emptyBegins = s.emptyBegins

namespace Closes

theorem refl (s : State) : Closes s s := ⟨List.suffix_refl _, rfl⟩

theorem trans {s s' s'' : State} (h : Closes s s') (h' : Closes s' s'') : Closes s s'' :=
  ⟨h'.frames.trans h.frames, h'.emptyBegins.trans h.emptyBegins⟩

variable (g : Grammar) (t : Text)

theorem pop_flushTo (i stop : Nat) (closure : Closure) (s : State) :
    Closes s ((s.flushTo g t i).pop stop closure) := by
  refine ⟨?_, by rw [pop_emptyBegins, flushTo_emptyBegins]⟩
  rw [pop_frames, flushTo_below, flushTo_frames]
  split
  · exact List.suffix_refl _
  · exact List.suffix_cons _ _

theorem cascade (n : Nat) (closed : Mode) (s : State) : Closes s (s.cascade g t n closed) :=
  cascade_induction g t (P := Closes s) (refl s) fun s' hs =>
    hs.trans (pop_flushTo g t s'.position s'.position .byChild s')

theorem closeInner (i levels : Nat) (s : State) : Closes s (s.closeInner g t i levels) :=
  closeInner_induction g t (P := Closes s) (refl s) fun s' hs =>
    hs.trans (pop_flushTo g t i i .withParent s')

end Closes

section closing
variable {g : Grammar} {t : Text} {s : State}

theorem cascade_position {n : Nat} {closed : Mode} :
    (s.cascade g t n closed).position = s.position :=
  cascade_induction g t (P := fun s' => s'.position = s.position) rfl
    fun _ hs => by rw [pop_position, flushTo_position, hs]

theorem closeInner_below {i levels : Nat} :
    (s.closeInner g t i levels).below = s.below.drop levels := by
  induction levels generalizing s with
  | zero => rfl
  | succ levels ih => rw [closeInner, ih, pop_below, flushTo_below, List.drop_tail]

theorem closeEnded_frames {span : Span} :
    (s.closeEnded g t span).frames = if s.below = [] then s.frames else s.below := by
  have hpop (i : Nat) : ((s.flushTo g t i).pop i .matched).frames =
      if s.below = [] then s.frames else s.below := by
    rw [pop_frames, flushTo_below, flushTo_frames]
  unfold closeEnded
  dsimp only
  split
  · exact hpop span.start
  split
  · split
    · exact hpop span.start
    · exact hpop span.start
  · split
    · rename_i scope _
      have hdelimiter := pop_frames span.stop .matched { s.flushTo g t span.start with
        log := (s.flushTo g t span.start).log.delimiter span scope }
      rw [← flushTo_frames g t span.start s, ← flushTo_below g t span.start s]
      exact hdelimiter
    · exact hpop span.stop

theorem closeEnded_emptyBegins {span : Span} :
    (s.closeEnded g t span).emptyBegins = s.emptyBegins := by
  unfold closeEnded
  dsimp only
  split
  · simp
  · split
    · split <;> simp
    · split <;> simp

theorem closeEnded_position {span : Span} (h : span.start ≤ span.stop) :
    span.start ≤ (s.closeEnded g t span).position ∧
      (s.closeEnded g t span).position ≤ span.stop := by
  unfold closeEnded
  dsimp only
  split
  · exact ⟨Nat.le_refl _, h⟩
  split
  · exact ⟨h, Nat.le_refl _⟩
  · split
    · exact ⟨h, Nat.le_refl _⟩
    · exact ⟨h, Nat.le_refl _⟩

theorem closeEnded_closes {span : Span} : Closes s (s.closeEnded g t span) := by
  refine ⟨?_, closeEnded_emptyBegins⟩
  rw [closeEnded_frames]
  split
  · exact List.suffix_refl _
  · exact List.suffix_cons _ _

/-- An end closes the region that it belongs to and those inside it, and does not come behind its
lexeme. -/
theorem finish_closes {level : Nat} {span : Span} (hle : span.start ≤ span.stop)
    (hlevel : level < s.below.length) :
    Closes s (s.finish g t level span) ∧
      (s.finish g t level span).frames.length < s.frames.length ∧
      span.start ≤ (s.finish g t level span).position ∧
      (s.finish g t level span).position ≤ span.stop := by
  have hinner : Closes s (s.closeInner g t span.start level) :=
    Closes.closeInner g t span.start level s
  have hended : Closes (s.closeInner g t span.start level)
      ((s.closeInner g t span.start level).closeEnded g t span) := closeEnded_closes
  have hframes : ((s.closeInner g t span.start level).closeEnded g t span).frames = _ :=
    closeEnded_frames
  have hposition := closeEnded_position (g := g) (t := t)
    (s := s.closeInner g t span.start level) hle
  rw [finish_eq]
  dsimp only
  generalize hs' : (s.closeInner g t span.start level).closeEnded g t span = s' at *
  have hcascade :=
    Closes.cascade g t s'.below.length (s.closeInner g t span.start level).top.mode s'
  refine ⟨(hinner.trans hended).trans hcascade, ?_, by rwa [cascade_position]⟩
  have hlength := hcascade.frames.length_le
  have hbelow : (s.closeInner g t span.start level).below ≠ [] := by
    rw [closeInner_below]
    exact List.ne_nil_of_length_pos (by rw [List.length_drop]; omega)
  rw [if_neg hbelow, closeInner_below] at hframes
  rw [hframes, List.length_drop] at hlength
  have hopen : s.frames.length = s.below.length + 1 := rfl
  omega

/-- An empty begin is noted, and one that is not empty leaves no trace. -/
def begunAt (id : Nat) (span : Span) (e : EmptyBegins) : EmptyBegins :=
  if span.isEmpty then e.record span.start id else e

theorem opening_emptyBegins {id : Nat} {finish : Option Matcher} {span : Span} :
    (s.opening g t id finish span).emptyBegins = begunAt id span s.emptyBegins := by
  have hnote : (s.noteBegin g id span).emptyBegins = begunAt id span s.emptyBegins := by
    unfold noteBegin begunAt
    dsimp only
    split <;> rfl
  rw [← hnote]
  unfold opening enter
  dsimp only
  split
  · split <;> simp [push]
  · simp [push]

/-- A begin opens a region, and moves on behind its lexeme. -/
theorem begin_closes {id index : Nat} {span : Span} {s' : State}
    (hvariant : (g.mode id).variants[index]? ≠ none)
    (h : s.begin g t id index span = .ok s') :
    (∃ f : Frame, s'.frames <:+ f :: s.frames) ∧
      s'.emptyBegins = begunAt id span s.emptyBegins ∧ s'.position = span.stop := by
  obtain ⟨hnone, -⟩ | ⟨v, finish, -, -, hs'⟩ := begin_cases h
  · exact absurd hnone hvariant
  have hnote : (s.noteBegin g id span).frames = s.frames := by
    unfold noteBegin
    dsimp only
    split <;> rfl
  obtain ⟨f, hf⟩ : ∃ f : Frame, (s.opening g t id finish span).frames = f :: s.frames :=
    ⟨_, hnote ▸ enter_frames (g.mode id) finish span (s.noteBegin g id span)⟩
  obtain rfl | rfl := hs'
  · have hpop := Closes.pop_flushTo g t span.stop span.stop .matched (s.opening g t id finish span)
    have hclosed := hpop.trans (Closes.cascade g t
      (((s.opening g t id finish span).flushTo g t span.stop).pop span.stop
        .matched).below.length (g.mode id) _)
    refine ⟨⟨f, hf ▸ hclosed.frames⟩, hclosed.emptyBegins.trans opening_emptyBegins, ?_⟩
    rw [closeOpened, cascade_position, pop_position, flushTo_position]
    rfl
  · exact ⟨⟨f, hf ▸ List.suffix_refl _⟩, opening_emptyBegins, rfl⟩

end closing

end State

/-! ## What may come next -/

section next
variable {g : Grammar} {t : Text} {s s' : State}

theorem nextStep_begin_mem (hg : g.Numbered) (h : Reachable g t s) {id index : Nat} {span : Span}
    (hnext : nextStep g t s = (.begin id index span, s')) : (id, index, span) ∈ begins g t s := by
  have hstep := nextStep_eq_arbitrate hg h
  rw [hnext, arbitrate, ← choose_eq] at hstep
  exact List.argmin_mem (choose_eq_begin hstep.symm)

theorem nextStep_finish_mem (hg : g.Numbered) (h : Reachable g t s) {level : Nat} {span : Span}
    (hnext : nextStep g t s = (.finish level span, s')) : (level, span) ∈ ends t s := by
  have hstep := nextStep_eq_arbitrate hg h
  rw [hnext, arbitrate, ← choose_eq] at hstep
  exact List.argmin_mem (choose_eq_finish hstep.symm)

/-- A blocked mode does not begin with an empty match at the position. -/
theorem findUnblocked?_ne {m : Matcher} {i : Nat} : findUnblocked? m t i true ≠ some ⟨i, i⟩ := by
  unfold findUnblocked?
  dsimp only
  split
  · split
    · intro h
      exact absurd (Matcher.find?_bounds h).1 (Nat.not_succ_le_self i)
    · exact nofun
  · rename_i h
    exact fun hfound => h ⟨hfound, rfl⟩

theorem mem_begins {id index : Nat} {span : Span} (h : (id, index, span) ∈ begins g t s) :
    id < g.modes.size ∧ (g.mode id).variants[index]? ≠ none ∧
      (span = ⟨s.position, s.position⟩ → s.emptyBegins.contains s.position id = false) := by
  obtain ⟨⟨id', index', m⟩, hc, hfound⟩ := List.mem_filterMap.mp h
  obtain ⟨span', hspan, heq⟩ := Option.map_eq_some_iff.mp hfound
  obtain ⟨rfl, rfl, rfl⟩ : id' = id ∧ index' = index ∧ span' = span := by simpa using heq
  obtain ⟨id'', -, hv⟩ := List.mem_flatMap.mp hc
  obtain ⟨⟨v, index''⟩, hmem, heq⟩ := List.mem_map.mp hv
  obtain ⟨rfl, rfl, rfl⟩ : id'' = id' ∧ index'' = index' ∧ v.begin = m := by simpa using heq
  have hvariant : (g.mode id'').variants[index'']? = some v := List.mem_zipIdx_iff_getElem?.mp hmem
  refine ⟨?_, by rw [hvariant]; exact Option.some_ne_none v, ?_⟩
  · refine Nat.lt_of_not_le fun hsize => ?_
    rw [Grammar.mode, Array.getD_eq_getD_getElem?, Array.getElem?_eq_none hsize] at hvariant
    cases hvariant
  · rintro rfl
    refine Bool.eq_false_iff.mpr fun hblocked => ?_
    rw [hblocked] at hspan
    exact findUnblocked?_ne hspan

theorem closable_prefix (fs : List Frame) : closable fs <+: fs := by
  induction fs with
  | nil => exact List.prefix_refl _
  | cons f fs ih =>
    rw [closable, List.prefix_cons_inj]
    split
    · exact ih
    · exact List.nil_prefix

theorem getElem?_of_closable {fs : List Frame} {level : Nat} {f : Frame}
    (h : (closable fs)[level]? = some f) : fs[level]? = some f := by
  obtain ⟨rest, hrest⟩ := closable_prefix fs
  obtain ⟨hlt, -⟩ := List.getElem?_eq_some_iff.mp h
  exact (congrArg (·[level]?) hrest).symm.trans ((List.getElem?_append_left hlt).trans h)

/-! ### The text outside every region does not end -/

namespace State

/-- What ends the open regions, innermost first. -/
def finishes (s : State) : List (Option Matcher) := s.frames.map Frame.finish

/-- Nothing ends the text outside every region. -/
def Rooted (s : State) : Prop := s.finishes.getLast? = some none

theorem forget_finishes (s : State) : s.forget.finishes = s.finishes := by
  rw [finishes, forget_frames, List.map_map]
  rfl

theorem Rooted.of_suffix (h : s.Rooted) {finish : Option Matcher}
    (hfinishes : s'.finishes <:+ finish :: s.finishes) : s'.Rooted := by
  obtain ⟨front, hfront⟩ := hfinishes
  have hlast : (front ++ s'.finishes).getLast? = some none := by
    rw [hfront, List.getLast?_cons, h]
    rfl
  have hsome : s'.finishes.getLast? = some _ := List.getLast?_cons
  rwa [List.getLast?_append, hsome, Option.some_or, ← hsome] at hlast

/-- An end belongs to an open region. -/
theorem Rooted.level_lt (h : s.Rooted) {level : Nat} {span : Span}
    (hend : (level, span) ∈ ends t s) :
    level < s.below.length := by
  obtain ⟨⟨f, level'⟩, hmem, hfound⟩ := List.mem_filterMap.mp hend
  obtain ⟨span', hspan, heq⟩ := Option.map_eq_some_iff.mp hfound
  obtain ⟨rfl, rfl⟩ : level' = level ∧ span' = span := by simpa using heq
  have hframe : s.frames[level']? = some f :=
    getElem?_of_closable (List.mem_zipIdx_iff_getElem?.mp hmem)
  have hlength : s.frames.length = s.below.length + 1 := rfl
  obtain ⟨hlt, -⟩ := List.getElem?_eq_some_iff.mp hframe
  refine Nat.lt_of_le_of_ne (by omega) fun hlast => ?_
  -- at the bottom of the stack there is nothing to be found
  have hbottom : s.finishes[level']? = some f.finish := by
    rw [finishes, List.getElem?_map, hframe]
    rfl
  rw [Rooted, List.getLast?_eq_getElem?, finishes, List.length_map, hlength, Nat.add_sub_cancel,
    ← hlast, ← finishes, hbottom] at h
  rw [Option.some.inj h] at hspan
  cases hspan

end State

end next

/-! ## What one step does -/

/-- A begin of the mode `id` at `span`. -/
structure BeginMoves (g : Grammar) (t : Text) (id : Nat) (span : Span) (s s' : State) : Prop where
  mode : id < g.modes.size
  within : span.Within s.position t.size
  unblocked : span = ⟨s.position, s.position⟩ → s.emptyBegins.contains s.position id = false
  finishes : ∃ finish, s'.finishes <:+ finish :: s.finishes
  emptyBegins : s'.emptyBegins = State.begunAt id span s.emptyBegins
  position : s'.position = span.stop

/-- An end at `span`. -/
structure FinishMoves (t : Text) (span : Span) (s s' : State) : Prop where
  within : span.Within s.position t.size
  finishes : s'.finishes <:+ s.finishes
  shorter : s'.frames.length < s.frames.length
  emptyBegins : s'.emptyBegins = s.emptyBegins
  position : span.start ≤ s'.position ∧ s'.position ≤ span.stop

section moves
variable {g : Grammar} {t : Text} {s s' : State} {span : Span}

theorem nextStep_finishes : (nextStep g t s).2.finishes = s.finishes := by
  rw [← State.forget_finishes, nextStep_forget, State.forget_finishes]

theorem nextStep_emptyBegins : (nextStep g t s).2.emptyBegins = s.emptyBegins := by
  have h := congrArg State.emptyBegins (nextStep_forget (g := g) (t := t) (s := s))
  exact h

theorem length_finishes (s : State) : s.finishes.length = s.frames.length := List.length_map _

theorem Takes.beginMoves (hg : g.Numbered) (hs : Reachable g t s) {id index : Nat}
    (h : Takes g t (.begin id index span) s s') : BeginMoves g t id span s s' := by
  cases h with
  | @begin _ s₁ _ _ _ _ hnext hbegin =>
    obtain ⟨hmode, hvariant, hunblocked⟩ := mem_begins (nextStep_begin_mem hg hs hnext)
    obtain ⟨⟨f, hframes⟩, hempty, hposition⟩ := State.begin_closes hvariant hbegin
    have hfinishes : s₁.finishes = s.finishes := by
      rw [← nextStep_finishes (g := g) (t := t) (s := s), hnext]
    have hemptyBegins : s₁.emptyBegins = s.emptyBegins := by
      rw [← nextStep_emptyBegins (g := g) (t := t) (s := s), hnext]
    refine ⟨hmode, ?_, hunblocked, ⟨f.finish, ?_⟩, hemptyBegins ▸ hempty, hposition⟩
    · rw [← position_eq_of_nextStep hnext]
      exact nextStep_begin_within (reachable_recalls hs) hnext
    · rw [← hfinishes]
      exact hframes.map Frame.finish

theorem Takes.finishMoves (hg : g.Numbered) (hs : Reachable g t s) (hrooted : s.Rooted)
    {level : Nat} (h : Takes g t (.finish level span) s s') : FinishMoves t span s s' := by
  cases h with
  | @finish _ s₁ _ _ hnext =>
    have hwithin : span.Within s.position t.size := by
      rw [← position_eq_of_nextStep hnext]
      exact nextStep_finish_within (reachable_recalls hs) hnext
    have hfinishes : s₁.finishes = s.finishes := by
      rw [← nextStep_finishes (g := g) (t := t) (s := s), hnext]
    have hemptyBegins : s₁.emptyBegins = s.emptyBegins := by
      rw [← nextStep_emptyBegins (g := g) (t := t) (s := s), hnext]
    have hlength : s₁.frames.length = s.frames.length := by
      rw [← length_finishes, hfinishes, length_finishes]
    have hlevel : level < s₁.below.length := by
      have hlt := hrooted.level_lt (nextStep_finish_mem hg hs hnext)
      simp only [State.frames, List.length_cons] at hlength
      omega
    obtain ⟨hcloses, hshorter, hposition⟩ :=
      State.finish_closes (g := g) (t := t) hwithin.2.1 hlevel
    refine ⟨hwithin, ?_, hlength ▸ hshorter, hemptyBegins ▸ hcloses.emptyBegins, hposition⟩
    rw [← hfinishes]
    exact hcloses.frames.map Frame.finish

end moves

/-! ## What a trace does -/

/-- The modes that begin with an empty match, and where, last first. -/
def emptyBegins (steps : List Step) : List (Nat × Nat) :=
  steps.filterMap fun
    | .begin id _ span => if span.isEmpty then some (id, span.start) else none
    | _ => none

section trace
variable {g : Grammar} {t : Text} {steps : List Step} {s : State}

theorem Trace.rooted (hg : g.Numbered) (h : Trace g t steps s) : s.Rooted := by
  induction h with
  | start => rfl
  | @step _ s s' step h hstep ih =>
    cases step with
    | begin id index span =>
      obtain ⟨f, hf⟩ := (hstep.beginMoves hg h.reachable).finishes
      exact ih.of_suffix hf
    | finish level span =>
      have hf := (hstep.finishMoves hg h.reachable ih).finishes
      exact ih.of_suffix (hf.trans (List.suffix_cons none _))
    | illegal i => cases hstep
    | done => cases hstep

/-- A trace goes on with a begin or an end. -/
theorem Trace.step_cases (hg : g.Numbered) (h : Trace g t steps s) {step : Step} {s' : State}
    (hstep : Takes g t step s s') :
    (∃ id index span, step = .begin id index span ∧ BeginMoves g t id span s s') ∨
      ∃ level span, step = .finish level span ∧ FinishMoves t span s s' := by
  cases step with
  | begin id index span => exact .inl ⟨id, index, span, rfl, hstep.beginMoves hg h.reachable⟩
  | finish level span =>
    exact .inr ⟨level, span, rfl, hstep.finishMoves hg h.reachable (h.rooted hg)⟩
  | illegal i => cases hstep
  | done => cases hstep

@[simp] theorem emptyBegins_finish {level : Nat} {span : Span} :
    emptyBegins (.finish level span :: steps) = emptyBegins steps := rfl

theorem emptyBegins_begin {id index : Nat} {span : Span} :
    emptyBegins (.begin id index span :: steps) =
      if span.isEmpty then (id, span.start) :: emptyBegins steps else emptyBegins steps := by
  unfold emptyBegins
  split
  · rename_i h
    exact List.filterMap_cons_some (if_pos h)
  · rename_i h
    exact List.filterMap_cons_none (if_neg h)

theorem EmptyBegins.contains_record {e : EmptyBegins} {i id id' : Nat}
    (h : id' = id ∨ e.contains i id' = true) : (e.record i id).contains i id' = true := by
  unfold record
  split
  · rename_i hi
    subst hi
    simpa [contains] using h
  · rename_i hi
    obtain rfl | h := h
    · simp [contains]
    · exact absurd (eq_of_beq (Bool.and_eq_true_iff.mp h).1) hi

/-- The empty begins of a trace are those of modes, and they lie in front of the position or at it.
At the position they are remembered. -/
theorem Trace.emptyBegins_known (hg : g.Numbered) (h : Trace g t steps s) :
    ∀ p ∈ emptyBegins steps, p.1 < g.modes.size ∧ p.2 ≤ s.position ∧
      (p.2 = s.position → s.emptyBegins.contains s.position p.1 = true) := by
  induction h with
  | start => exact nofun
  | @step steps s s' step h hstep ih =>
    obtain ⟨id, index, span, rfl, hmoves⟩ | ⟨level, span, rfl, hmoves⟩ := h.step_cases hg hstep
    · obtain ⟨hpos, hle, -⟩ := hmoves.within
      have hbegun := hmoves.emptyBegins
      intro p hp
      rw [hmoves.position]
      rw [emptyBegins_begin] at hp
      by_cases hempty : span.isEmpty = true
      · rw [State.begunAt, if_pos hempty] at hbegun
        rw [if_pos hempty] at hp
        have hstop : span.start = span.stop := eq_of_beq hempty
        rw [hbegun, ← hstop]
        obtain rfl | hp := List.mem_cons.mp hp
        · exact ⟨hmoves.mode, Nat.le_refl _, fun _ => EmptyBegins.contains_record (.inl rfl)⟩
        · obtain ⟨hmode, hle', hknown⟩ := ih p hp
          refine ⟨hmode, by omega, fun heq => EmptyBegins.contains_record (.inr ?_)⟩
          have hposition : span.start = s.position := by omega
          rw [hposition]
          exact hknown (by omega)
      · rw [if_neg hempty] at hp
        obtain ⟨hmode, hle', -⟩ := ih p hp
        have hne : span.start ≠ span.stop := fun heq => hempty (beq_iff_eq.mpr heq)
        exact ⟨hmode, by omega, fun heq => absurd heq (by omega)⟩
    · obtain ⟨hpos, -, -⟩ := hmoves.within
      obtain ⟨hstart, -⟩ := hmoves.position
      intro p hp
      obtain ⟨hmode, hle', hknown⟩ := ih p hp
      refine ⟨hmode, by omega, fun heq => ?_⟩
      have hposition : s'.position = s.position := by omega
      rw [hposition, hmoves.emptyBegins]
      exact hknown (by omega)

/-- Each mode begins with an empty match at most once at each position. -/
theorem Trace.emptyBegins_nodup (hg : g.Numbered) (h : Trace g t steps s) :
    (emptyBegins steps).Nodup := by
  induction h with
  | start => exact .nil
  | @step steps s s' step h hstep ih =>
    obtain ⟨id, index, span, rfl, hmoves⟩ | ⟨level, span, rfl, -⟩ := h.step_cases hg hstep
    · rw [emptyBegins_begin]
      split
      · rename_i hempty
        refine List.nodup_cons.mpr ⟨fun hmem => ?_, ih⟩
        obtain ⟨-, hle, hknown⟩ := h.emptyBegins_known hg _ hmem
        have hstart : span.start = s.position := Nat.le_antisymm hle hmoves.within.1
        have hspan : span = ⟨s.position, s.position⟩ := by
          obtain ⟨start, stop⟩ := span
          obtain rfl : start = stop := eq_of_beq hempty
          exact congrArg (fun i => Span.mk i i) hstart
        have hblocked := hknown hstart
        rw [hmoves.unblocked hspan] at hblocked
        cases hblocked
      · exact ih
    · exact ih

/-- Of the steps of a trace those that are not paid for by the position that it has come to are
empty begins, each with the end that it makes possible. -/
theorem Trace.length_add_le (hg : g.Numbered) (h : Trace g t steps s) :
    steps.length + s.frames.length ≤ 2 * (s.position + (emptyBegins steps).length) + 1 := by
  induction h with
  | start => exact Nat.le_refl 1
  | @step steps s s' step h hstep ih =>
    obtain ⟨id, index, span, rfl, hmoves⟩ | ⟨level, span, rfl, hmoves⟩ := h.step_cases hg hstep
    · obtain ⟨hpos, hle, -⟩ := hmoves.within
      obtain ⟨f, hf⟩ := hmoves.finishes
      have hframes := hf.length_le
      rw [length_finishes, List.length_cons, length_finishes] at hframes
      rw [hmoves.position, emptyBegins_begin, List.length_cons]
      split
      · rw [List.length_cons]
        omega
      · rename_i hempty
        have hne : span.start ≠ span.stop := fun heq => hempty (beq_iff_eq.mpr heq)
        omega
    · have hpos := hmoves.within.1
      have hstart := hmoves.position.1
      have hshorter := hmoves.shorter
      rw [emptyBegins_finish, List.length_cons]
      omega

theorem Trace.length_emptyBegins_le (hg : g.Numbered) (h : Trace g t steps s) :
    (emptyBegins steps).length ≤ g.modes.size * (t.size + 1) := by
  have hposition := (State.reachable_aligned h.reachable).position
  have hsubset : emptyBegins steps ⊆ List.range g.modes.size ×ˢ List.range (t.size + 1) := by
    intro p hp
    obtain ⟨hmode, hle, -⟩ := h.emptyBegins_known hg p hp
    rw [List.mem_product, List.mem_range, List.mem_range]
    omega
  have hlength := (List.subperm_of_subset (h.emptyBegins_nodup hg) hsubset).length_le
  rwa [List.length_product, List.length_range, List.length_range] at hlength

/-- No trace is as long as a scan may be. -/
theorem Trace.length_lt (hg : g.Numbered) (h : Trace g t steps s) :
    steps.length < stepBound t.size g.modes.size := by
  have hposition := (State.reachable_aligned h.reachable).position
  have hframes : s.frames.length = s.below.length + 1 := rfl
  have hlength := h.length_add_le hg
  have hempty := h.length_emptyBegins_le hg
  rw [stepBound]
  omega

end trace

end Scan

open Scan

/-- A tokenization is what the trace of the scan ends with. -/
theorem tokenize_eq_iff {g : Grammar} (hg : g.Numbered) {policy : IllegalPolicy} {source : String}
    {r : Except Error Tokenization} :
    g.tokenize policy source = r ↔
      ∃ steps s, Trace g (.ofString source) steps s ∧ Ends g (.ofString source) policy s r :=
  scan_eq_iff fun _ _ h => h.length_lt hg

/-- A scan ends by itself. In a text of `n` bytes and with `m` modes it takes at most
`2 * (n + m * (n + 1)) + 1` steps, the one with which it ends included. Each mode begins with an
empty match at most once at each position; the position never moves back, it moves on at each begin
that is not empty, and each end closes a region. -/
theorem scan_terminates {d : GrammarDef} {g : Grammar} {source : String}
    (hd : Grammar.compile d = .ok g) :
    (∀ steps s, Trace g (.ofString source) steps s →
      steps.length + 1 ≤
          2 * (source.utf8ByteSize + g.modes.size * (source.utf8ByteSize + 1)) + 1 ∧
        (emptyBegins steps).Nodup ∧
        (∀ step s', Takes g (.ofString source) step s s' → s.position ≤ s'.position) ∧
        (∀ id index span s', Takes g (.ofString source) (.begin id index span) s s' →
          span.start < span.stop → s.position < s'.position) ∧
        ∀ level span s', Takes g (.ofString source) (.finish level span) s s' →
          s'.frames.length < s.frames.length) ∧
      ∀ policy, ∃ steps s, Trace g (.ofString source) steps s ∧
        Ends g (.ofString source) policy s (g.tokenize policy source) := by
  have hg := Grammar.compile_numbered hd
  refine ⟨fun steps s h => ⟨?_, h.emptyBegins_nodup hg, ?_, ?_, ?_⟩, fun policy =>
    (tokenize_eq_iff hg).mp rfl⟩
  · have hsize := Text.size_le_utf8ByteSize source
    have hmodes := Nat.mul_le_mul_left g.modes.size (Nat.add_le_add_right hsize 1)
    have hlength := h.length_lt hg
    rw [stepBound] at hlength
    omega
  · intro step s' hstep
    obtain ⟨id, index, span, rfl, hmoves⟩ | ⟨level, span, rfl, hmoves⟩ := h.step_cases hg hstep
    · obtain ⟨hstart, hle, -⟩ := hmoves.within
      rw [hmoves.position]
      exact Nat.le_trans hstart hle
    · exact Nat.le_trans hmoves.within.1 hmoves.position.1
  · intro id index span s' hstep hlt
    have hmoves := hstep.beginMoves hg h.reachable
    rw [hmoves.position]
    exact Nat.lt_of_le_of_lt hmoves.within.1 hlt
  · intro level span s' hstep
    exact (hstep.finishMoves hg h.reachable (h.rooted hg)).shorter

theorem scan_terminates_parentheses : ∃ steps s,
    Grammar.compile parenthesesDef = .ok parentheses ∧
      Trace parentheses (.ofString "é(x)") steps s ∧ steps.length + 1 ≤ 35 ∧
      Ends parentheses (.ofString "é(x)") .abort s (.ok groupBehindText) := by
  obtain ⟨hsteps, hends⟩ := @scan_terminates parenthesesDef parentheses "é(x)"
    compile_eq_parentheses
  obtain ⟨steps, s, htrace, hr⟩ := hends .abort
  have hmodes : parentheses.modes.size = 2 := by decide +kernel
  have hbytes : "é(x)".utf8ByteSize = 5 := rfl
  obtain ⟨hlength, -⟩ := hsteps steps s htrace
  rw [hmodes, hbytes] at hlength
  rw [tokenize_parentheses] at hr
  exact ⟨steps, s, compile_eq_parentheses, htrace, by omega, hr⟩

end Tinct
