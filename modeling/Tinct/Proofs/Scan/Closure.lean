import Mathlib.Data.List.Infix
import Tinct.Proofs.Scan.Exits

/-!
# Why regions close

Every exit that a scan reports gives a reason, and the reason is true of the events around it:

* `Explained`: what each reason says of the events in front of an exit and behind it;
* `exitsAlong_explained`, `exitsOfEnd_explained`: all exits of one end are explained by each other,
  but for the one region that ends by itself;
* `EndsItself`: how a region ends by itself;
* `Trace.explained`, `Ends.explained`: every exit that a scan has written is explained;
* `exits_explained`: so is every exit of a tokenization.
-/

namespace Tinct

section explained
variable (g : Grammar)

/-- If a region of the mode `id` takes along the one around it, where `os` are around it, then the
next enter or exit among `back` is the exit of that one. -/
def TakesAlong (id : Nat) (os : List OpenRegion) (back : List Event) : Prop :=
  (g.mode id).flags.endsParent = true → ∀ p ∈ os.head?,
    ∃ stop, (boundaries back).head? = some (p.exit stop .byChild)

/-- Why the region `o`, with `os` around it, closes at `stop`, between the events `front` and `back`
of a text that ends at `size`. The regions that end by themselves are given by `own`, and `illegal`
is where the scan has stopped at an illegal sequence. -/
inductive Explained (size : Nat) (illegal : Option Nat) (own : OpenRegion → Nat → Prop)
    (front : List Event) (o : OpenRegion) (os : List OpenRegion) (stop : Nat)
    (back : List Event) : Closure → Prop where
  | matched (hown : own o stop) (htakes : TakesAlong g o.mode os back) :
      Explained size illegal own front o os stop back .matched
  /-- The region around it closes next, by itself or with the one around that. -/
  | withParent {p : OpenRegion} {stop' : Nat} {closure : Closure}
      (hflag : (g.mode o.mode).flags.endsWithParent = true) (hparent : os.head? = some p)
      (hnext : (boundaries back).head? = some (p.exit stop' closure))
      (hclosure : closure = .matched ∨ closure = .withParent) :
      Explained size illegal own front o os stop back .withParent
  /-- The region `c` directly inside it has closed just now, by itself or by a region inside it. -/
  | byChild {c : OpenRegion} {before : List Event} {stop' : Nat} {closure : Closure}
      (hlast : boundaries front = before ++ [c.exit stop' closure])
      (hchild : openBehind before = c :: o :: os)
      (hflag : (g.mode c.mode).flags.endsParent = true)
      (hclosure : closure = .matched ∨ closure = .byChild) (htakes : TakesAlong g o.mode os back) :
      Explained size illegal own front o os stop back .byChild
  /-- Nothing is left but other exits at the end of the text. -/
  | endOfInput (hstop : stop = size)
      (hback : ∀ e ∈ back, ∃ o' : OpenRegion, e = o'.exit size .endOfInput) :
      Explained size illegal own front o os stop back .endOfInput
  | illegal (hstop : illegal = some stop) :
      Explained size illegal own front o os stop back .illegal

/-- All exits among `es`, with `front` in front of them, are explained, none of them by the end of
the text. -/
def AllExplained (size : Nat) (illegal : Option Nat) (own : OpenRegion → Nat → Prop) :
    List Event → List Event → Prop
  | _, [] => True
  | front, e :: es =>
    (∀ o stop closure, e = o.exit stop closure → closure ≠ .endOfInput ∧
      ∃ os, openBehind front = o :: os ∧ Explained g size illegal own front o os stop es closure) ∧
    AllExplained size illegal own (front ++ [e]) es

end explained

section
variable {g : Grammar} {size : Nat} {illegal : Option Nat} {own own' : OpenRegion → Nat → Prop}
  {front back : List Event} {o : OpenRegion} {os : List OpenRegion} {stop : Nat} {closure : Closure}

theorem OpenRegion.exit_inj {o o' : OpenRegion} {stop stop' : Nat} {closure closure' : Closure}
    (h : o.exit stop closure = o'.exit stop' closure') :
    o = o' ∧ stop = stop' ∧ closure = closure' := by
  obtain ⟨mode, scope, start⟩ := o
  obtain ⟨mode', scope', start'⟩ := o'
  cases h
  exact ⟨rfl, rfl, rfl⟩

theorem head?_boundaries_append {e : Event} (h : (boundaries back).head? = some e)
    (es : List Event) : (boundaries (back ++ es)).head? = some e := by
  rw [boundaries_append, List.head?_append, h, Option.some_or]

theorem TakesAlong.append {id : Nat} (h : TakesAlong g id os back) (es : List Event) :
    TakesAlong g id os (back ++ es) := by
  intro hflag p hp
  obtain ⟨stop, hnext⟩ := h hflag p hp
  exact ⟨stop, head?_boundaries_append hnext es⟩

/-- What explains an exit still does when more is written, unless it was the end of the text. -/
theorem Explained.append (h : Explained g size illegal own front o os stop back closure)
    (hne : closure ≠ .endOfInput) (es : List Event) :
    Explained g size illegal own front o os stop (back ++ es) closure := by
  cases h with
  | matched hown htakes => exact .matched hown (htakes.append es)
  | withParent hflag hparent hnext hclosure =>
    exact .withParent hflag hparent (head?_boundaries_append hnext es) hclosure
  | byChild hlast hchild hflag hclosure htakes =>
    exact .byChild hlast hchild hflag hclosure (htakes.append es)
  | endOfInput _ _ => exact absurd rfl hne
  | illegal hstop => exact .illegal hstop

theorem Explained.mono (h : Explained g size illegal own front o os stop back closure)
    (hown : ∀ o stop, own o stop → own' o stop) :
    Explained g size illegal own' front o os stop back closure := by
  cases h with
  | matched h htakes => exact .matched (hown _ _ h) htakes
  | withParent hflag hparent hnext hclosure => exact .withParent hflag hparent hnext hclosure
  | byChild hlast hchild hflag hclosure htakes => exact .byChild hlast hchild hflag hclosure htakes
  | endOfInput hstop hback => exact .endOfInput hstop hback
  | illegal hstop => exact .illegal hstop

/-- Tokens do not matter to what explains an exit. -/
theorem Explained.of_boundaries
    (h : Explained g size illegal own (boundaries front) o os stop (boundaries back) closure)
    (hne : closure ≠ .endOfInput) : Explained g size illegal own front o os stop back closure := by
  have htakes {id : Nat} (h : TakesAlong g id os (boundaries back)) : TakesAlong g id os back := by
    intro hflag p hp
    have hnext := h hflag p hp
    rwa [boundaries_boundaries] at hnext
  cases h with
  | matched hown h => exact .matched hown (htakes h)
  | withParent hflag hparent hnext hclosure =>
    rw [boundaries_boundaries] at hnext
    exact .withParent hflag hparent hnext hclosure
  | byChild hlast hchild hflag hclosure h =>
    rw [boundaries_boundaries] at hlast
    exact .byChild hlast hchild hflag hclosure (htakes h)
  | endOfInput _ _ => exact absurd rfl hne
  | illegal hstop => exact .illegal hstop

/-- What explains an exit does so at other offsets. -/
theorem Explained.map {f : Nat → Nat}
    (h : Explained g size illegal own front o os stop back closure)
    (hown : ∀ o stop, own o stop → own' (o.mapOffset f) (f stop)) :
    Explained g (f size) (illegal.map f) own' (front.map (·.mapOffsets f)) (o.mapOffset f)
      (os.map (·.mapOffset f)) (f stop) (back.map (·.mapOffsets f)) closure := by
  have hhead {p : OpenRegion} {stop : Nat} {closure : Closure}
      (hnext : (boundaries back).head? = some (p.exit stop closure)) :
      (boundaries (back.map (·.mapOffsets f))).head? =
        some ((p.mapOffset f).exit (f stop) closure) := by
    rw [boundaries_map, List.head?_map, hnext]
    rfl
  have htakes {id : Nat} (h : TakesAlong g id os back) :
      TakesAlong g id (os.map (·.mapOffset f)) (back.map (·.mapOffsets f)) := by
    intro hflag p hp
    rw [List.head?_map] at hp
    obtain ⟨p', hp', rfl⟩ := Option.map_eq_some_iff.mp hp
    obtain ⟨stop, hnext⟩ := h hflag p' hp'
    exact ⟨f stop, hhead hnext⟩
  cases h with
  | matched h h' => exact .matched (hown _ _ h) (htakes h')
  | @withParent p stop' closure hflag hparent hnext hclosure =>
    refine .withParent hflag ?_ (hhead hnext) hclosure
    rw [List.head?_map, hparent]
    rfl
  | @byChild c before stop' closure hlast hchild hflag hclosure h =>
    have hlast' : boundaries (front.map (·.mapOffsets f)) =
        before.map (·.mapOffsets f) ++ [(c.mapOffset f).exit (f stop') closure] := by
      rw [boundaries_map, hlast, List.map_append]
      rfl
    refine .byChild hlast' ?_ hflag hclosure (htakes h)
    rw [openBehind_map, hchild]
    rfl
  | endOfInput hstop hback =>
    refine .endOfInput (congrArg f hstop) fun e he => ?_
    obtain ⟨e', he', rfl⟩ := List.mem_map.mp he
    obtain ⟨o', rfl⟩ := hback e' he'
    exact ⟨o'.mapOffset f, rfl⟩
  | illegal hstop => exact .illegal (by rw [hstop]; rfl)

theorem AllExplained.mono {es : List Event} (h : AllExplained g size illegal own front es)
    (hown : ∀ o stop, own o stop → own' o stop) :
    AllExplained g size illegal own' front es := by
  induction es generalizing front with
  | nil => trivial
  | cons e es ih =>
    refine ⟨fun o stop closure he => ?_, ih h.2⟩
    obtain ⟨hne, os, hopen, hexplained⟩ := h.1 o stop closure he
    exact ⟨hne, os, hopen, hexplained.mono hown⟩

theorem AllExplained.append {es fs : List Event} (h : AllExplained g size illegal own front es)
    (h' : AllExplained g size illegal own (front ++ es) fs) :
    AllExplained g size illegal own front (es ++ fs) := by
  induction es generalizing front with
  | nil => simpa using h'
  | cons e es ih =>
    refine ⟨fun o stop closure he => ?_, ih h.2 (by simpa using h')⟩
    obtain ⟨hne, os, hopen, hexplained⟩ := h.1 o stop closure he
    exact ⟨hne, os, hopen, hexplained.append hne fs⟩

theorem AllExplained.explained {front' : List Event}
    (h : AllExplained g size illegal own front (front' ++ o.exit stop closure :: back)) :
    closure ≠ .endOfInput ∧ ∃ os, openBehind (front ++ front') = o :: os ∧
      Explained g size illegal own (front ++ front') o os stop back closure := by
  induction front' generalizing front with
  | nil => simpa using h.1 o stop closure rfl
  | cons e front' ih => simpa using ih h.2

/-! ## The exits of one end explain each other -/

theorem openBehind_exit (h : openBehind front = o :: os) (stop : Nat) (closure : Closure) :
    openBehind (front ++ [o.exit stop closure]) = os := by
  rw [openBehind_concat, h]
  rfl

/-- A region takes along what is around it with the exits that follow its own. -/
theorem takesAlong_exitsAlong (g : Grammar) (i id : Nat) (os : List OpenRegion) :
    TakesAlong g id os (exitsAlong g i id os) := by
  intro hflag p hp
  cases os with
  | nil => cases hp
  | cons o os =>
    cases hp
    rw [exitsAlong, if_pos hflag, boundaries_exit]
    exact ⟨i, rfl⟩

/-- The regions that a closed region takes along close by it, or by one that it has taken along. -/
theorem exitsAlong_explained {c : OpenRegion} {before : List Event} {stop' i : Nat}
    {closure' : Closure} (hfront : front = before ++ [c.exit stop' closure'])
    (hchild : openBehind before = c :: os) (hclosure : closure' = .matched ∨ closure' = .byChild) :
    AllExplained g size illegal own front (exitsAlong g i c.mode os) := by
  induction os generalizing c before front stop' closure' with
  | nil => trivial
  | cons o os ih =>
    have hopen : openBehind front = o :: os := by rw [hfront, openBehind_exit hchild]
    rw [exitsAlong]
    split
    · rename_i hflag
      refine ⟨fun o' stop closure he => ?_, ih rfl hopen (.inr rfl)⟩
      obtain ⟨rfl, rfl, rfl⟩ := OpenRegion.exit_inj he
      have hlast : boundaries front = boundaries before ++ [c.exit stop' closure'] := by
        rw [hfront, boundaries_append]
        rfl
      refine ⟨by simp, os, hopen, .byChild hlast ?_ hflag hclosure ?_⟩
      · rw [openBehind_boundaries, hchild]
      · exact takesAlong_exitsAlong g i o.mode os
    · trivial

/-- The first exit of an end is that of the innermost region. -/
theorem head?_exitsOfEnd (lexeme : Span) {level : Nat} (h : level < (o :: os).length) :
    ∃ stop closure, (boundaries (exitsOfEnd g lexeme level (o :: os))).head? =
      some (o.exit stop closure) ∧ (closure = .matched ∨ closure = .withParent) := by
  cases level with
  | zero =>
    rw [exitsOfEnd, boundaries_exit]
    exact ⟨_, _, rfl, .inl rfl⟩
  | succ level =>
    rw [exitsOfEnd, boundaries_exit]
    exact ⟨_, _, rfl, .inr rfl⟩

/-- The inner regions of an end close with the region whose end it is, as far as they may. -/
theorem exitsOfEnd_explained {lexeme : Span} {level : Nat} (hopen : openBehind front = os)
    (hlevel : level < os.length)
    (hinner : ∀ o ∈ os.take level, (g.mode o.mode).flags.endsWithParent = true)
    (hown : ∀ o, os[level]? = some o → own o ((g.mode o.mode).flags.regionStop lexeme)) :
    AllExplained g size illegal own front (exitsOfEnd g lexeme level os) := by
  induction level generalizing os front with
  | zero =>
    obtain ⟨o, os, rfl⟩ := List.exists_cons_of_length_pos hlevel
    refine ⟨fun o' stop closure he => ?_, exitsAlong_explained rfl hopen (.inl rfl)⟩
    obtain ⟨rfl, rfl, rfl⟩ := OpenRegion.exit_inj he
    exact ⟨by simp, os, hopen, .matched (hown o rfl) (takesAlong_exitsAlong g _ o.mode os)⟩
  | succ level ih =>
    obtain ⟨o, os, rfl⟩ := List.exists_cons_of_length_pos (Nat.zero_lt_of_lt hlevel)
    rw [List.take_succ_cons] at hinner
    obtain ⟨hflag, hinner⟩ := List.forall_mem_cons.mp hinner
    have hlevel' : level < os.length := by simpa using hlevel
    refine ⟨fun o' stop closure he => ?_, ih (openBehind_exit hopen _ _) hlevel' hinner hown⟩
    obtain ⟨rfl, rfl, rfl⟩ := OpenRegion.exit_inj he
    obtain ⟨p, os, rfl⟩ := List.exists_cons_of_length_pos (Nat.zero_lt_of_lt hlevel')
    obtain ⟨stop', closure', hnext, hclosure⟩ := head?_exitsOfEnd (g := g) lexeme hlevel'
    exact ⟨by simp, p :: os, hopen, .withParent hflag rfl hnext hclosure⟩

end

namespace Scan

/-! ## Regions that end by themselves -/

/-- One of the steps has begun the region of a frame with the variant `v` of its mode at `lexeme`,
and what ends the region is the end that goes with this begin. -/
structure Frame.BegunAt (g : Grammar) (t : Text) (steps : List Step) (f : Frame) (v : Variant)
    (lexeme : Span) : Prop where
  begun : ∃ index, .begin f.mode.id index lexeme ∈ steps ∧
    (g.mode f.mode.id).variants[index]? = some v
  start : f.start = (g.mode f.mode.id).flags.regionStart lexeme
  finish : State.endMatcher t v lexeme = .ok f.finish

/-- The region `o` ends by itself at `stop` in the course of a trace. -/
inductive EndsItself (g : Grammar) (t : Text) (steps : List Step) : OpenRegion → Nat → Prop where
  /-- The variant with which it begins ends right behind its begin lexeme. -/
  | immediate {id index : Nat} {lexeme : Span} {v : Variant}
      (hbegun : .begin id index lexeme ∈ steps) (hv : (g.mode id).variants[index]? = some v)
      (hfinish : v.finish = .immediate) :
      EndsItself g t steps ⟨id, (g.mode id).scope, (g.mode id).flags.regionStart lexeme⟩ lexeme.stop
  /-- In one of the steps its own end is found from the position of the scan on. -/
  | own {level : Nat} {before : List Step} {s s' : State} {f : Frame} {v : Variant} {m : Matcher}
      {lexeme span : Span} (hsteps : .finish level span :: before <:+ steps)
      (htrace : Trace g t before s) (htakes : Takes g t (.finish level span) s s')
      (hframe : s.frames[level]? = some f) (hbegun : f.BegunAt g t before v lexeme)
      (hm : f.finish = some m) (hfind : m.find? t s.position true = some span) :
      EndsItself g t steps f.region ((g.mode f.mode.id).flags.regionStop span)

section trace
variable {g : Grammar} {t : Text} {steps : List Step} {s s' : State}

theorem EndsItself.mono {steps' : List Step} {o : OpenRegion} {stop : Nat}
    (h : EndsItself g t steps o stop) (hsteps : steps <:+ steps') :
    EndsItself g t steps' o stop := by
  cases h with
  | immediate hbegun hv hfinish => exact .immediate (hsteps.subset hbegun) hv hfinish
  | own hsuffix htrace htakes hframe hbegun hm hfind =>
    exact .own (hsuffix.trans hsteps) htrace htakes hframe hbegun hm hfind

theorem Frame.BegunAt.mono {f : Frame} {v : Variant} {lexeme : Span} {steps' : List Step}
    (h : f.BegunAt g t steps v lexeme) (hsteps : steps <:+ steps') :
    f.BegunAt g t steps' v lexeme := by
  obtain ⟨index, hbegun, hv⟩ := h.begun
  exact ⟨⟨index, hsteps.subset hbegun, hv⟩, h.start, h.finish⟩

/-- A frame that has an end has begun in one of the steps. -/
def Frame.Begun (g : Grammar) (t : Text) (steps : List Step) (f : Frame) : Prop :=
  f.finish ≠ none → ∃ v lexeme, f.BegunAt g t steps v lexeme

theorem nextStep_begun (h : ∀ f ∈ s.frames, f.Begun g t steps) :
    ∀ f ∈ (nextStep g t s).2.frames, f.Begun g t steps := by
  intro f hf
  have hforget : (nextStep g t s).2.frames.map Frame.forget = s.frames.map Frame.forget := by
    rw [← State.forget_frames, ← State.forget_frames, nextStep_forget]
  obtain ⟨f', hf', heq⟩ := List.mem_map.mp (hforget ▸ List.mem_map_of_mem hf)
  obtain ⟨hmode, hfinish, hstart, -⟩ := Frame.mk.inj heq
  intro hne
  obtain ⟨v, lexeme, hbegun, hregion, hmatcher⟩ := h f' hf' (hfinish ▸ hne)
  rw [hmode] at hbegun hregion
  exact ⟨v, lexeme, hbegun, hstart ▸ hregion, hfinish ▸ hmatcher⟩

/-- Every region that has an end of its own has it from the begin with which it has opened. -/
theorem Trace.begun (hg : g.Numbered) (h : Trace g t steps s) :
    ∀ f ∈ s.frames, f.Begun g t steps := by
  induction h with
  | start =>
    intro f hf hne
    rw [List.mem_singleton.mp hf] at hne
    exact absurd rfl hne
  | @step steps s s' step h hstep ih =>
    have hs : ∀ f ∈ s.frames, f.Begun g t (step :: steps) := by
      intro f hf hne
      obtain ⟨v, lexeme, hbegun⟩ := ih f hf hne
      exact ⟨v, lexeme, hbegun.mono (List.suffix_cons _ _)⟩
    have hnext' := nextStep_begun hs
    cases step with
    | begin id index span =>
      have hid := hg.mode_id (hstep.beginMoves hg h.reachable).mode
      cases hstep with
      | @begin _ s₁ _ _ _ _ hnext hbegin =>
        rw [hnext] at hnext'
        obtain ⟨-, rfl⟩ | ⟨v, finish, hv, he, hs'⟩ := State.begin_cases hbegin
        · exact hnext'
        have hopen : ∀ f ∈ (s₁.opening g t id finish span).frames,
            f.Begun g t (.begin id index span :: steps) := by
          rw [State.opening_frames]
          refine List.forall_mem_cons.mpr ⟨fun _ => ⟨v, span, ⟨index, ?_, ?_⟩, ?_, he⟩, hnext'⟩
          · rw [hid]
            exact List.mem_cons_self
          · rwa [hid]
          · rw [hid]
            rfl
        obtain rfl | rfl := hs'
        · exact State.cascade_forall_frames (State.pop_flushTo_forall_frames hopen)
        · exact hopen
    | finish level span =>
      cases hstep with
      | finish hnext =>
        rw [hnext] at hnext'
        exact State.finish_forall_frames hnext'
    | illegal i => cases hstep
    | done => cases hstep

/-! ## The exits of a trace -/

/-- The frames inside one that may close end with the one around them. -/
theorem endsWithParent_of_closable {fs : List Frame} {level : Nat} {f : Frame}
    (h : (closable fs)[level]? = some f) :
    ∀ f' ∈ fs.take level, f'.mode.flags.endsWithParent = true := by
  induction fs generalizing level with
  | nil => simp
  | cons f' fs ih =>
    cases level with
    | zero => simp
    | succ level =>
      rw [closable, List.getElem?_cons_succ] at h
      split at h
      · rename_i hflag
        rw [List.take_succ_cons]
        exact List.forall_mem_cons.mpr ⟨hflag, ih h⟩
      · cases h

/-- An end that comes next is found with the end of a frame, and the frames inside it end with the
ones around them. -/
theorem exists_frame_of_finish (hg : g.Numbered) (h : Reachable g t s) {level : Nat} {span : Span}
    (hnext : nextStep g t s = (.finish level span, s')) :
    ∃ f m, s.frames[level]? = some f ∧ f.finish = some m ∧
      m.find? t s.position true = some span ∧
      ∀ f' ∈ s.frames.take level, f'.mode.flags.endsWithParent = true := by
  obtain ⟨⟨f, level'⟩, hmem, hfound⟩ := List.mem_filterMap.mp (nextStep_finish_mem hg h hnext)
  obtain ⟨span', hspan, heq⟩ := Option.map_eq_some_iff.mp hfound
  obtain ⟨rfl, rfl⟩ : level' = level ∧ span' = span := by simpa using heq
  have hclosable : (closable s.frames)[level']? = some f := List.mem_zipIdx_iff_getElem?.mp hmem
  obtain ⟨m, hm, hfind⟩ := Option.bind_eq_some_iff.mp hspan
  exact ⟨f, m, getElem?_of_closable hclosable, hm, hfind, endsWithParent_of_closable hclosable⟩

/-- The modes of open regions stand at their places. -/
theorem Stacked.mode_eq {fs : List Frame} (h : Stacked g fs) :
    ∀ f ∈ fs.dropLast, f.mode = g.mode f.mode.id := by
  induction h with
  | root _ _ => simp
  | @region f f' fs _ hmode _ ih =>
    rw [List.dropLast_cons_cons]
    exact List.forall_mem_cons.mpr ⟨hmode, ih⟩

theorem State.length_opened (s : State) : s.opened.length = s.below.length := by
  simp [opened, frames]

theorem State.opened_getElem? {level : Nat} {f : Frame} (hlevel : level < s.below.length)
    (h : s.frames[level]? = some f) : s.opened[level]? = some f.region := by
  have hlength : s.frames.length = s.below.length + 1 := rfl
  have hlast : s.frames.dropLast[level]? = some f := by
    rw [List.getElem?_dropLast, if_pos (by omega), h]
  rw [opened, List.getElem?_map, hlast]
  rfl

/-- Looking for the next step opens and closes nothing. -/
theorem nextStep_boundaries (g : Grammar) (t : Text) (s : State) :
    (nextStep g t s).2.boundaries = s.boundaries ∧ (nextStep g t s).2.opened = s.opened := by
  have hforget := nextStep_forget (g := g) (t := t) (s := s)
  have hlog : (nextStep g t s).2.log = s.log := (State.mk.inj hforget).2.2.2.2.1
  refine ⟨by rw [State.boundaries, hlog, State.boundaries], ?_⟩
  rw [← State.forget_opened, hforget, State.forget_opened]

/-- What is open is what the enters and exits so far leave open. -/
theorem Trace.openBehind_boundaries (hg : g.Numbered) (h : Trace g t steps s) :
    openBehind s.boundaries = s.opened := by
  rw [State.boundaries, Tinct.openBehind_boundaries]
  exact (h.retold hg).replays.accounted.openBehind

/-- A begin that writes exits writes that of the region it opens, which ends right there, and those
of the regions that this one takes along. -/
theorem Trace.begin_explained (hg : g.Numbered) {size : Nat} {illegal : Option Nat} {id index : Nat}
    {span : Span} (h : Trace g t steps s) (hstep : Takes g t (.begin id index span) s s')
    (hold : AllExplained g size illegal (EndsItself g t (.begin id index span :: steps)) []
      s.boundaries) :
    AllExplained g size illegal (EndsItself g t (.begin id index span :: steps)) []
      s'.boundaries := by
  have hopen := h.openBehind_boundaries hg
  have hstacked := (h.retold hg).nextStep.stacked
  obtain ⟨hboundaries, hopened⟩ := nextStep_boundaries g t s
  have hid := hg.mode_id (hstep.beginMoves hg h.reachable).mode
  cases hstep with
  | begin hnext hbegin =>
    have hvariant := (mem_begins (nextStep_begin_mem hg h.reachable hnext)).2.1
    rw [hnext] at hstacked hboundaries hopened
    obtain ⟨v, finish, hv, -, ⟨hfinish, hs'⟩ | rfl⟩ :=
      State.begin_boundaries hid hstacked hvariant hbegin
    · rw [hs', hboundaries, hopened]
      refine hold.append ⟨by rintro ⟨⟩ _ _ ⟨⟩, ?_⟩
      have henter : openBehind (s.boundaries ++
          [.enter id (g.mode id).scope ((g.mode id).flags.regionStart span)]) =
            ⟨id, (g.mode id).scope, (g.mode id).flags.regionStart span⟩ :: s.opened := by
        rw [openBehind_concat, hopen]
        rfl
      refine ⟨fun o stop closure he => ?_, exitsAlong_explained rfl henter (.inl rfl)⟩
      obtain ⟨rfl, rfl, rfl⟩ := OpenRegion.exit_inj he
      refine ⟨by simp, s.opened, henter, .matched ?_ (takesAlong_exitsAlong g _ id _)⟩
      exact .immediate List.mem_cons_self hv hfinish
    · rw [State.opening_boundaries hid, hboundaries]
      exact hold.append ⟨by rintro ⟨⟩ _ _ ⟨⟩, trivial⟩

/-- An end writes the exit of its region, of those inside it, which may all end with the one around
them, and of those that the region takes along. -/
theorem Trace.finish_explained (hg : g.Numbered) {size : Nat} {illegal : Option Nat} {level : Nat}
    {span : Span} (h : Trace g t steps s) (hstep : Takes g t (.finish level span) s s')
    (hold : AllExplained g size illegal (EndsItself g t (.finish level span :: steps)) []
      s.boundaries) :
    AllExplained g size illegal (EndsItself g t (.finish level span :: steps)) []
      s'.boundaries := by
  have hopen := h.openBehind_boundaries hg
  have hstacked := (h.retold hg).nextStep.stacked
  obtain ⟨hboundaries, hopened⟩ := nextStep_boundaries g t s
  have hstep' := hstep
  cases hstep with
  | finish hnext =>
    obtain ⟨f, m, hframe, hm, hfind, hinner⟩ := exists_frame_of_finish hg h.reachable hnext
    have hlevel := (h.rooted hg).level_lt (nextStep_finish_mem hg h.reachable hnext)
    obtain ⟨v, lexeme, hbegun⟩ := h.begun hg f (List.mem_of_getElem? hframe) (by simp [hm])
    rw [hnext] at hstacked hboundaries hopened
    rw [State.finish_boundaries hstacked (by rw [hopened, State.length_opened]; exact hlevel),
      hboundaries, hopened]
    refine hold.append (exitsOfEnd_explained hopen ?_ ?_ fun o ho => ?_)
    · rw [State.length_opened]
      exact hlevel
    · intro o ho
      rw [State.opened, ← List.map_take] at ho
      obtain ⟨f', hf', rfl⟩ := List.mem_map.mp ho
      have hmode := (h.retold hg).stacked.mode_eq f' (List.mem_of_mem_take hf')
      have hmem : f' ∈ s.frames.take level :=
        (List.IsPrefix.take (List.dropLast_prefix s.frames) level).subset hf'
      change (g.mode f'.mode.id).flags.endsWithParent = true
      rw [← hmode]
      exact hinner f' hmem
    · rw [State.opened_getElem? hlevel hframe] at ho
      obtain rfl := Option.some.inj ho
      exact .own (List.suffix_refl _) h hstep' hframe hbegun hm hfind

/-- All exits that a trace has written are explained. -/
theorem Trace.explained (hg : g.Numbered) (size : Nat) (illegal : Option Nat)
    (h : Trace g t steps s) :
    AllExplained g size illegal (EndsItself g t steps) [] s.boundaries := by
  induction h with
  | start => trivial
  | @step steps s s' step h hstep ih =>
    have hold : AllExplained g size illegal (EndsItself g t (step :: steps)) [] s.boundaries :=
      ih.mono fun _ _ hown => hown.mono (List.suffix_cons _ _)
    cases step with
    | begin id index span => exact h.begin_explained hg hstep hold
    | finish level span => exact h.finish_explained hg hstep hold
    | illegal i => cases hstep
    | done => cases hstep

/-! ## The exits of a whole scan -/

/-- One of the elements of two lists in a row is one of the first or of the second. -/
theorem append_eq_append_cons {α : Type} {as bs front back : List α} {a : α}
    (h : as ++ bs = front ++ a :: back) :
    (∃ mid, as = front ++ a :: mid ∧ back = mid ++ bs) ∨
      ∃ mid, front = as ++ mid ∧ bs = mid ++ a :: back := by
  obtain ⟨mid, hfront, hbs⟩ | ⟨mid, has, hmid⟩ := List.append_eq_append_iff.mp h
  · exact .inr ⟨mid, hfront, hbs⟩
  · obtain ⟨rfl, hbs⟩ | ⟨mid', rfl, hback⟩ := List.append_eq_cons_iff.mp hmid.symm
    · exact .inr ⟨[], by simpa using has.symm, hbs⟩
    · exact .inl ⟨mid', has, hback⟩

/-- Where the open regions close one after another behind events whose exits are explained, all
exits are explained if those of the open regions are. -/
theorem explained_of_closing {size : Nat} {illegal : Option Nat} {own : OpenRegion → Nat → Prop}
    {es rest front back : List Event} {os : List OpenRegion} {o : OpenRegion} {i stop : Nat}
    {closure closure' : Closure} (hes : AllExplained g size illegal own [] (boundaries es))
    (hopen : openBehind es = os) (hrest : boundaries rest = [])
    (hnew : ∀ front inner o around, os = inner ++ o :: around →
      Explained g size illegal own front o around i (around.map (·.exit i closure') ++ rest)
        closure')
    (hsplit : es ++ (os.map (·.exit i closure') ++ rest) = front ++ o.exit stop closure :: back) :
    ∃ around, openBehind front = o :: around ∧
      Explained g size illegal own front o around stop back closure := by
  obtain ⟨mid, rfl, rfl⟩ | ⟨mid, rfl, hmid⟩ := append_eq_append_cons hsplit
  · rw [boundaries_append, boundaries_exit] at hes
    obtain ⟨hne, around, hfront, hexplained⟩ := hes.explained
    rw [List.nil_append] at hfront hexplained
    rw [openBehind_boundaries] at hfront
    exact ⟨around, hfront, (hexplained.of_boundaries hne).append hne _⟩
  obtain ⟨back, hexits, rfl⟩ | ⟨mid', rfl, rfl⟩ := append_eq_append_cons hmid
  · obtain ⟨inner, outer, rfl, rfl, houter⟩ := List.map_eq_append_iff.mp hexits
    obtain ⟨o', around, rfl, ho', rfl⟩ := List.map_eq_cons_iff.mp houter
    obtain ⟨rfl, rfl, rfl⟩ := OpenRegion.exit_inj ho'
    refine ⟨around, ?_, hnew _ inner o' around rfl⟩
    have hclosed := foldl_reopen_exits inner (o' :: around) i closure'
    rwa [openBehind, List.foldl_append, ← openBehind, hopen]
  · rw [boundaries_append, boundaries_exit] at hrest
    simp at hrest

/-- Where the next step ends a scan, the text that has waited is written first; the exits are
those of the trace, and the regions are still open. -/
theorem Trace.flushed_explained (hg : g.Numbered) (h : Trace g t steps s) (illegal : Option Nat)
    (i : Nat) :
    AllExplained g t.size illegal (EndsItself g t steps) []
        (boundaries ((nextStep g t s).2.flushTo g t i).log.events.reverse) ∧
      openBehind ((nextStep g t s).2.flushTo g t i).log.events.reverse = s.opened := by
  have hsame : boundaries ((nextStep g t s).2.flushTo g t i).log.events.reverse = s.boundaries :=
    (State.flushTo_boundaries i).trans (nextStep_boundaries g t s).1
  refine ⟨hsame ▸ h.explained hg t.size illegal, ?_⟩
  rw [← Tinct.openBehind_boundaries, hsame, h.openBehind_boundaries hg]

/-- All exits that a scan has written when it ends are explained. -/
theorem Ends.explained {policy : IllegalPolicy} {r : Tokenization} (hg : g.Numbered)
    (h : Trace g t steps s) (hr : Ends g t policy s (.ok r)) :
    ∃ es illegal, r.events = es.map (·.mapOffsets t.offset) ∧ r.illegal = illegal.map t.offset ∧
      ∀ front o stop closure back, es = front ++ o.exit stop closure :: back →
        ∃ os, openBehind front = o :: os ∧
          Explained g t.size illegal (EndsItself g t steps) front o os stop back closure := by
  have haligned := State.nextStep_aligned (g := g) (State.reachable_aligned h.reachable)
  have hopened := (nextStep_boundaries g t s).2
  have hflushed := h.flushed_explained hg
  cases hr with
  | @done s₁ hnext =>
    rw [hnext] at haligned hopened hflushed
    obtain ⟨hexplained, hopen⟩ := hflushed none t.size
    have hevents : (s₁.finishInput g t).log.events.reverse =
        (s₁.flushTo g t t.size).log.events.reverse ++
          (s.opened.map (·.exit t.size .endOfInput) ++ []) := by
      have hall : (s₁.finishInput g t).log.events = _ :=
        State.popAll_events (congrArg List.length (State.flushTo_below g t t.size s₁))
      rw [hall, State.flushTo_opened, hopened]
      simp
    refine ⟨_, none, State.result_events (State.finishInput_written haligned), rfl, ?_⟩
    intro front o stop closure back hsplit
    rw [hevents] at hsplit
    refine explained_of_closing hexplained hopen rfl (fun front inner o around _ => ?_) hsplit
    refine .endOfInput rfl fun e he => ?_
    rw [List.append_nil] at he
    obtain ⟨o', -, rfl⟩ := List.mem_map.mp he
    exact ⟨o', rfl⟩
  | @recovered s₁ i hnext hpolicy =>
    have hlt := nextStep_illegal_lt hg h.reachable hnext
    obtain ⟨hpos, hi⟩ := nextStep_illegal_within (reachable_recalls h.reachable) hnext
    rw [hnext] at haligned hopened hflushed
    obtain ⟨hexplained, hopen⟩ := hflushed (some i) i
    have hevents : (s₁.recover g t i).log.events.reverse =
        (s₁.flushTo g t i).log.events.reverse ++
          (s.opened.map (·.exit i .illegal) ++ [.token ⟨⟨i, t.size⟩, none, .text⟩]) := by
      rw [State.recover_events hlt, hopened]
      simp
    refine ⟨_, some i, State.result_events
      (State.recover_written (haligned.toCoveredTo.mono hpos) hi), ?_, ?_⟩
    · rw [State.result, Option.map_some, Option.map_some, t.offsets_getD hi]
    · intro front o stop closure back hsplit
      rw [hevents] at hsplit
      exact explained_of_closing hexplained hopen rfl (fun _ _ _ _ _ => .illegal rfl) hsplit

end trace

/-- The region `o` ends by itself at `stop` in the course of a trace, both given by byte offsets of
`source`. -/
def EndsItselfAtOffset (g : Grammar) (source : String) (steps : List Step) (o : OpenRegion)
    (stop : Nat) : Prop :=
  ∃ o' stop', EndsItself g (.ofString source) steps o' stop' ∧
    o = o'.mapOffset (Text.ofString source).offset ∧ stop = (Text.ofString source).offset stop'

end Scan

open Scan

/-- The reason that an exit of a tokenization gives is true. A region that has ended by itself does
so right behind its begin lexeme, or where its own end has been found; a region that has ended with
the one around it is one that may, and the next exit is that of the region around; a region that has
ended by a child is the next to exit behind the child, which takes it along; at the end of the text
there is nothing else behind. Conversely a region that takes the one around it along is followed by
the exit of that one, unless it has ended with the text or at an illegal sequence. -/
theorem exits_explained {d : GrammarDef} {g : Grammar} {policy : IllegalPolicy} {source : String}
    {r : Tokenization} (hd : Grammar.compile d = .ok g) (h : g.tokenize policy source = .ok r) :
    ∃ steps s, Trace g (.ofString source) steps s ∧ Ends g (.ofString source) policy s (.ok r) ∧
      ∀ front mode scope span closure back,
        r.events = front ++ .exit mode scope span closure :: back →
          ∃ os, openBehind front = ⟨mode, scope, span.start⟩ :: os ∧
            Explained g source.utf8ByteSize r.illegal (EndsItselfAtOffset g source steps) front
              ⟨mode, scope, span.start⟩ os span.stop back closure := by
  have hg := Grammar.compile_numbered hd
  obtain ⟨steps, s, htrace, hends⟩ := (tokenize_eq_iff hg).mp h
  refine ⟨steps, s, htrace, hends, fun front mode scope span closure back hevents => ?_⟩
  obtain ⟨es, illegal, hes, hillegal, hexplained⟩ := hends.explained hg htrace
  rw [hes, List.map_eq_append_iff] at hevents
  obtain ⟨front, rest, rfl, rfl, hrest⟩ := hevents
  obtain ⟨e, back, rfl, he, rfl⟩ := List.map_eq_cons_iff.mp hrest
  obtain ⟨span, rfl, rfl⟩ : ∃ span', e = .exit mode scope span' closure ∧
      span = span'.map (Text.ofString source).offset := by
    cases e with
    | token tok => cases he
    | enter mode scope offset => cases he
    | exit mode scope span closure => cases he; exact ⟨span, rfl, rfl⟩
  obtain ⟨os, hopen, hthis⟩ := hexplained front ⟨mode, scope, span.start⟩ span.stop closure back rfl
  refine ⟨os.map (·.mapOffset (Text.ofString source).offset), ?_, ?_⟩
  · rw [openBehind_map, hopen]
    rfl
  · rw [hillegal, ← Text.offset_size]
    exact hthis.map fun o stop hown => ⟨o, stop, hown, rfl, rfl⟩

/-- Directives with a value that ends with them, and calls that are given up at a stop. -/
def chainsDef : GrammarDef where
  name := "chains"
  contains := [
    .inline
      { scope := some "directive", begin := some (.source "#"), finish := some (.source ";")
        contains := [.inline
          { scope := some "value", begin := some (.source "="), endsWithParent := true }] },
    .inline
      { scope := some "call", begin := some (.source "\\("), finish := some (.source "\\)")
        contains := [.inline
          { scope := some "stop", matched := some (.source "!"), endsParent := true }] }]

theorem compile_chainsDef : (Grammar.compile chainsDef).toOption.isSome = true := by
  decide +kernel

def chains : Grammar := (Grammar.compile chainsDef).toOption.get compile_chainsDef

theorem compile_eq_chains : Grammar.compile chainsDef = .ok chains :=
  eq_ok_of_toOption_eq_some (Option.some_get compile_chainsDef).symm

/-- A directive with a value, a call that is given up, and one that the text leaves open. -/
def directiveAndCalls : Tokenization where
  events := [.enter 1 (some ⟨"directive"⟩) 0, .token ⟨⟨0, 1⟩, some ⟨"directive"⟩, .text⟩,
    .enter 2 (some ⟨"value"⟩) 1, .token ⟨⟨1, 2⟩, some ⟨"value"⟩, .text⟩,
    .exit 2 (some ⟨"value"⟩) ⟨1, 2⟩ .withParent, .token ⟨⟨2, 3⟩, some ⟨"directive"⟩, .text⟩,
    .exit 1 (some ⟨"directive"⟩) ⟨0, 3⟩ .matched, .enter 3 (some ⟨"call"⟩) 3,
    .token ⟨⟨3, 4⟩, some ⟨"call"⟩, .text⟩, .enter 4 (some ⟨"stop"⟩) 4,
    .token ⟨⟨4, 5⟩, some ⟨"stop"⟩, .text⟩, .exit 4 (some ⟨"stop"⟩) ⟨4, 5⟩ .matched,
    .exit 3 (some ⟨"call"⟩) ⟨3, 5⟩ .byChild, .enter 3 (some ⟨"call"⟩) 5,
    .token ⟨⟨5, 6⟩, some ⟨"call"⟩, .text⟩, .exit 3 (some ⟨"call"⟩) ⟨5, 6⟩ .endOfInput]
  relevance := 4
  illegal := none

theorem tokenize_chains : chains.tokenize .abort "#=;(!(" = .ok directiveAndCalls :=
  eq_ok_of_toOption_eq_some (by decide +kernel)

theorem exits_explained_chains :
    Grammar.compile chainsDef = .ok chains ∧
      chains.tokenize .abort "#=;(!(" = .ok directiveAndCalls ∧
      ∃ steps, Explained chains 6 none (EndsItselfAtOffset chains "#=;(!(" steps)
          (directiveAndCalls.events.take 4) ⟨2, some ⟨"value"⟩, 1⟩ [⟨1, some ⟨"directive"⟩, 0⟩] 2
          (directiveAndCalls.events.drop 5) .withParent ∧
        Explained chains 6 none (EndsItselfAtOffset chains "#=;(!(" steps)
          (directiveAndCalls.events.take 6) ⟨1, some ⟨"directive"⟩, 0⟩ [] 3
          (directiveAndCalls.events.drop 7) .matched ∧
        Explained chains 6 none (EndsItselfAtOffset chains "#=;(!(" steps)
          (directiveAndCalls.events.take 12) ⟨3, some ⟨"call"⟩, 3⟩ [] 5
          (directiveAndCalls.events.drop 13) .byChild := by
  obtain ⟨steps, -, -, -, hexits⟩ := exits_explained compile_eq_chains tokenize_chains
  have hbytes : "#=;(!(".utf8ByteSize = 6 := rfl
  rw [hbytes] at hexits
  obtain ⟨os, hopen, hvalue⟩ := hexits [_, _, _, _] _ _ _ _ _ rfl
  obtain ⟨os', hopen', hdirective⟩ := hexits [_, _, _, _, _, _] _ _ _ _ _ rfl
  obtain ⟨os'', hopen'', hcall⟩ := hexits [_, _, _, _, _, _, _, _, _, _, _, _] _ _ _ _ _ rfl
  obtain rfl := (List.cons.inj hopen).2
  obtain rfl := (List.cons.inj hopen').2
  obtain rfl := (List.cons.inj hopen'').2
  exact ⟨compile_eq_chains, tokenize_chains, steps, hvalue, hdirective, hcall⟩

end Tinct
