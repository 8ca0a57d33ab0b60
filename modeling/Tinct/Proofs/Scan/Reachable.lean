import Mathlib.Logic.Relation
import Tinct.Scan.Run

/-!
# The states of a scan

A scan goes from state to state (`Advances`) until it concludes (`Concludes`):

* `exists_concludes_of_scan_eq_ok`: what a scan returns is what one of the states that it reaches
  concludes with;
* `State.begin_cases`, `State.finish_eq`: what a begin and an end do, taken apart;
* `State.begin_forall_frames`, `State.finish_forall_frames`: what holds of the region that opens
  holds of all open ones;
* `State.begin_grammarIllegal`, `State.finish_grammarIllegal`: what is remembered of the illegal
  sequences of the grammar stays.
-/

namespace Tinct.Scan
namespace State

/-- The open regions, innermost first, and the text around them. -/
def frames (s : State) : List Frame := s.top :: s.below

/-! ## What the moves leave as it is -/

section moves
variable (g : Grammar) (t : Text)

@[simp] theorem flushTo_frames (i : Nat) (s : State) : (s.flushTo g t i).frames = s.frames := by
  simp [frames]

@[simp] theorem flushTo_grammarIllegal (i : Nat) (s : State) :
    (s.flushTo g t i).grammarIllegal = s.grammarIllegal := by
  unfold flushTo; split <;> rfl

theorem flushTo_flushed_eq {i : Nat} {s : State} (h : s.flushed ≤ i) :
    (s.flushTo g t i).flushed = i := by
  rw [flushTo_flushed, Nat.max_eq_right h]

theorem pop_cases (stop : Nat) (closure : Closure) (s : State) :
    s.below = [] ∧ s.pop stop closure = s ∨
      ∃ frame below, s.below = frame :: below ∧ s.pop stop closure =
        { s with
          log := s.log.event
            (.exit s.top.mode.id s.top.mode.scope ⟨s.top.start, stop⟩ closure)
          top := frame, below } := by
  rcases hb : s.below with _ | ⟨frame, below⟩
  · exact .inl ⟨rfl, by simp [pop, pop?, hb]⟩
  · exact .inr ⟨frame, below, rfl, by simp [pop, pop?, hb]⟩

@[simp] theorem pop_position (stop : Nat) (closure : Closure) (s : State) :
    (s.pop stop closure).position = s.position := by
  obtain ⟨-, h⟩ | ⟨_, _, -, h⟩ := s.pop_cases stop closure <;> rw [h]

@[simp] theorem pop_flushed (stop : Nat) (closure : Closure) (s : State) :
    (s.pop stop closure).flushed = s.flushed := by
  obtain ⟨-, h⟩ | ⟨_, _, -, h⟩ := s.pop_cases stop closure <;> rw [h]

@[simp] theorem pop_grammarIllegal (stop : Nat) (closure : Closure) (s : State) :
    (s.pop stop closure).grammarIllegal = s.grammarIllegal := by
  obtain ⟨-, h⟩ | ⟨_, _, -, h⟩ := s.pop_cases stop closure <;> rw [h]

theorem mem_frames_of_pop {stop : Nat} {closure : Closure} {s : State} {f : Frame}
    (h : f ∈ (s.pop stop closure).frames) : f ∈ s.frames := by
  obtain ⟨-, hp⟩ | ⟨frame, below, hb, hp⟩ := s.pop_cases stop closure
  · rwa [hp] at h
  · rw [hp] at h
    rw [frames, hb]
    exact List.mem_cons_of_mem _ h

/-- What holds of a state holds behind a cascade if closing one more region keeps it. -/
theorem cascade_induction {P : State → Prop} {n : Nat} {closed : Mode} {s : State} (h : P s)
    (hpop : ∀ s, P s → P ((s.flushTo g t s.position).pop s.position .byChild)) :
    P (s.cascade g t n closed) := by
  induction n generalizing closed s with
  | zero => exact h
  | succ n ih =>
    have hs := hpop s h
    rw [cascade]
    dsimp only
    split
    · split
      · rename_i s' hp
        rw [flushTo_position] at hp
        rw [pop, hp] at hs
        exact ih hs
      · rename_i hp
        rw [flushTo_position] at hp
        rw [pop, hp] at hs
        exact hs
    · exact h

theorem closeInner_induction {P : State → Prop} {i levels : Nat} {s : State} (h : P s)
    (hpop : ∀ s, P s → P ((s.flushTo g t i).pop i .withParent)) :
    P (s.closeInner g t i levels) := by
  induction levels generalizing s with
  | zero => exact h
  | succ levels ih => exact ih (hpop s h)

theorem popAll_induction {P : State → Prop} {stop : Nat} {closure : Closure} {n : Nat} {s : State}
    (h : P s) (hpop : ∀ s, P s → P (s.pop stop closure)) : P (s.popAll stop closure n) := by
  induction n generalizing s with
  | zero => exact h
  | succ n ih => exact ih (hpop s h)

end moves

section enter
variable {g : Grammar} {t : Text} (m : Mode) (finish : Option Matcher) (span : Span) (s : State)

@[simp] theorem enter_frames :
    (s.enter g t m finish span).frames =
      { mode := m, finish, start := if m.flags.excludeBegin then span.stop else span.start
        textScope := m.scope.or s.top.textScope } :: s.frames := by
  unfold enter
  dsimp only
  split
  · split <;> simp [push, frames]
  · simp [push, frames]

@[simp] theorem enter_grammarIllegal :
    (s.enter g t m finish span).grammarIllegal = s.grammarIllegal := by
  unfold enter
  dsimp only
  split
  · split <;> simp [push]
  · simp [push]

end enter

/-- A begin is noted before its region opens: an empty one at its position, and its mode in the
relevance of the text. -/
def noteBegin (g : Grammar) (id : Nat) (span : Span) (s : State) : State :=
  let s := if span.isEmpty then { s with emptyBegins := s.emptyBegins.record span.start id } else s
  { s with log := s.log.scoreMode (g.mode id) }

/-- The region of a begin is open. -/
def opening (g : Grammar) (t : Text) (id : Nat) (finish : Option Matcher) (span : Span)
    (s : State) : State :=
  { enter g t (g.mode id) finish span (s.noteBegin g id span) with position := span.stop }

/-- The region that opened at a begin closes right away. -/
def closeOpened (g : Grammar) (t : Text) (id : Nat) (span : Span) (s : State) : State :=
  let s := (s.flushTo g t span.stop).pop span.stop .matched
  s.cascade g t s.below.length (g.mode id)

/-- What a begin does once it is known what ends its region. -/
def beginWith (g : Grammar) (t : Text) (id : Nat) (v : Variant) (span : Span) (s : State)
    (finish : Option Matcher) : State :=
  match v.finish with
  | .immediate => (s.opening g t id finish span).closeOpened g t id span
  | _ => s.opening g t id finish span

theorem begin_eq (g : Grammar) (t : Text) (id index : Nat) (span : Span) (s : State) :
    s.begin g t id index span =
      match (g.mode id).variants[index]? with
      | none => .ok s
      | some v => (endMatcher t v span).map (s.beginWith g t id v span) := by
  unfold begin
  dsimp only
  cases (g.mode id).variants[index]? with
  | none => rfl
  | some v =>
    dsimp only
    cases endMatcher t v span with
    | error e => rfl
    | ok finish =>
      change (match v.finish with
        | .immediate => .ok ((s.opening g t id finish span).closeOpened g t id span)
        | _ => .ok (s.opening g t id finish span)) =
          (.ok (s.beginWith g t id v span finish) : Except GrammarFault State)
      unfold beginWith
      cases v.finish <;> rfl

/-- What a begin does. -/
theorem begin_cases {g : Grammar} {t : Text} {id index : Nat} {span : Span} {s s' : State}
    (h : s.begin g t id index span = .ok s') :
    (g.mode id).variants[index]? = none ∧ s' = s ∨
      ∃ v finish, (g.mode id).variants[index]? = some v ∧ endMatcher t v span = .ok finish ∧
        (s' = (s.opening g t id finish span).closeOpened g t id span ∨
          s' = s.opening g t id finish span) := by
  rw [begin_eq] at h
  split at h
  · rename_i hv
    cases h
    exact .inl ⟨hv, rfl⟩
  · rename_i v hv
    cases he : endMatcher t v span with
    | error e => rw [he] at h; cases h
    | ok finish =>
      rw [he] at h
      cases h
      refine .inr ⟨v, finish, hv, he, ?_⟩
      unfold beginWith
      split
      · exact .inl rfl
      · exact .inr rfl

/-- The innermost region ends at the end lexeme `span`, which belongs to it, to what stands around
it, or to neither. -/
def closeEnded (g : Grammar) (t : Text) (span : Span) (s : State) : State :=
  let m := s.top.mode
  if m.flags.returnEnd then
    let s := (s.flushTo g t span.start).pop span.start .matched
    { s with position := span.start }
  else if m.flags.excludeEnd then
    let s := (s.flushTo g t span.start).pop span.start .matched
    let s := match m.endScope with
      | some scope => { s with log := s.log.delimiter span scope, flushed := span.stop }
      | none => { s with flushed := span.start }
    { s with position := span.stop }
  else
    match m.endScope with
    | some scope =>
      let s := s.flushTo g t span.start
      let s := { s with log := s.log.delimiter span scope }
      { s.pop span.stop .matched with flushed := span.stop, position := span.stop }
    | none => { (s.flushTo g t span.stop).pop span.stop .matched with position := span.stop }

/-- What an end does. -/
theorem finish_eq (g : Grammar) (t : Text) (level : Nat) (span : Span) (s : State) :
    s.finish g t level span =
      let s := s.closeInner g t span.start level
      let s' := s.closeEnded g t span
      s'.cascade g t s'.below.length s.top.mode := rfl

section frames
variable {g : Grammar} {t : Text} {P : Frame → Prop} {s : State}

theorem pop_flushTo_forall_frames {i stop : Nat} {closure : Closure} (h : ∀ f ∈ s.frames, P f) :
    ∀ f ∈ ((s.flushTo g t i).pop stop closure).frames, P f := by
  intro f hf
  have := mem_frames_of_pop hf
  rw [flushTo_frames] at this
  exact h f this

theorem cascade_forall_frames {n : Nat} {m : Mode} (h : ∀ f ∈ s.frames, P f) :
    ∀ f ∈ (s.cascade g t n m).frames, P f :=
  cascade_induction g t (P := fun s => ∀ f ∈ s.frames, P f) h
    fun _ hs => pop_flushTo_forall_frames hs

theorem closeEnded_forall_frames {span : Span} (h : ∀ f ∈ s.frames, P f) :
    ∀ f ∈ (s.closeEnded g t span).frames, P f := by
  unfold closeEnded
  dsimp only
  split
  · exact pop_flushTo_forall_frames h
  · split
    · split <;> exact pop_flushTo_forall_frames h
    · split
      · intro f hf
        have hpop := mem_frames_of_pop (s := { s.flushTo g t span.start with log := _ }) hf
        rw [← flushTo_frames g t span.start s] at h
        exact h f hpop
      · exact pop_flushTo_forall_frames h

/-- No region opens where regions end. -/
theorem finish_forall_frames {level : Nat} {span : Span} (h : ∀ f ∈ s.frames, P f) :
    ∀ f ∈ (s.finish g t level span).frames, P f := by
  rw [finish_eq]
  refine cascade_forall_frames (closeEnded_forall_frames ?_)
  exact closeInner_induction g t (P := fun s => ∀ f ∈ s.frames, P f) h
    fun _ hs => pop_flushTo_forall_frames hs

/-- One region opens at a begin, with nothing remembered. -/
theorem begin_forall_frames {id index : Nat} {span : Span} {s' : State}
    (hbegin : s.begin g t id index span = .ok s') (h : ∀ f ∈ s.frames, P f)
    (hnew : ∀ v finish start scope, (g.mode id).variants[index]? = some v →
      endMatcher t v span = .ok finish →
      P { mode := g.mode id, finish, start, textScope := scope }) :
    ∀ f ∈ s'.frames, P f := by
  obtain ⟨-, rfl⟩ | ⟨v, finish, hv, he, hs'⟩ := begin_cases hbegin
  · exact h
  have hopen : ∀ f ∈ (s.opening g t id finish span).frames, P f := by
    intro f hf
    change f ∈ (enter g t (g.mode id) finish span (s.noteBegin g id span)).frames at hf
    rw [enter_frames] at hf
    rcases List.mem_cons.mp hf with rfl | hf
    · exact hnew v finish _ _ hv he
    · refine h f ?_
      unfold noteBegin at hf
      dsimp only at hf
      split at hf <;> exact hf
  obtain rfl | rfl := hs'
  · exact cascade_forall_frames (pop_flushTo_forall_frames hopen)
  · exact hopen

end frames

section illegal
variable {g : Grammar} {t : Text} {s : State}

theorem cascade_grammarIllegal {n : Nat} {m : Mode} :
    (s.cascade g t n m).grammarIllegal = s.grammarIllegal :=
  cascade_induction g t (P := fun s' => s'.grammarIllegal = s.grammarIllegal) rfl
    fun _ hs => by rw [pop_grammarIllegal, flushTo_grammarIllegal, hs]

theorem closeEnded_grammarIllegal {span : Span} :
    (s.closeEnded g t span).grammarIllegal = s.grammarIllegal := by
  unfold closeEnded
  dsimp only
  split
  · simp
  · split
    · split <;> simp
    · split <;> simp

theorem finish_grammarIllegal {level : Nat} {span : Span} :
    (s.finish g t level span).grammarIllegal = s.grammarIllegal := by
  rw [finish_eq]
  dsimp only
  rw [cascade_grammarIllegal, closeEnded_grammarIllegal]
  exact closeInner_induction g t (P := fun s' => s'.grammarIllegal = s.grammarIllegal) rfl
    fun _ hs => by rw [pop_grammarIllegal, flushTo_grammarIllegal, hs]

theorem opening_grammarIllegal {id : Nat} {finish : Option Matcher} {span : Span} :
    (s.opening g t id finish span).grammarIllegal = s.grammarIllegal := by
  rw [opening, enter_grammarIllegal, noteBegin]
  dsimp only
  split <;> rfl

theorem begin_grammarIllegal {id index : Nat} {span : Span} {s' : State}
    (h : s.begin g t id index span = .ok s') : s'.grammarIllegal = s.grammarIllegal := by
  obtain ⟨-, rfl⟩ | ⟨v, finish, -, -, rfl | rfl⟩ := begin_cases h
  · rfl
  · rw [closeOpened, cascade_grammarIllegal, pop_grammarIllegal, flushTo_grammarIllegal,
      opening_grammarIllegal]
  · exact opening_grammarIllegal

end illegal

end State

section steps
variable (g : Grammar) (t : Text)

/-- A step that opens or closes regions. -/
inductive Advances : State → State → Prop where
  | begin {s s₁ s₂ : State} {id index : Nat} {span : Span}
      (hnext : nextStep g t s = (.begin id index span, s₁))
      (hbegin : s₁.begin g t id index span = .ok s₂) : Advances s s₂
  | finish {s s₁ : State} {level : Nat} {span : Span}
      (hnext : nextStep g t s = (.finish level span, s₁)) :
      Advances s (s₁.finish g t level span)

/-- The states that a scan comes to. -/
def Reachable (s : State) : Prop := Relation.ReflTransGen (Advances g t) (.initial g) s

/-- What a scan concludes with in a state. -/
inductive Concludes (policy : IllegalPolicy) (s : State) : Tokenization → Prop where
  | done {s₁ : State} (hnext : nextStep g t s = (.done, s₁)) :
      Concludes policy s ((s₁.finishInput g t).result t none)
  | illegal {s₁ : State} {i : Nat} (hnext : nextStep g t s = (.illegal i, s₁))
      (hpolicy : policy = .plainRemainder) :
      Concludes policy s ((s₁.recover g t i).result t (some i))
  /-- No steps are left. -/
  | exhausted : Concludes policy s ((s.finishInput g t).result t none)

end steps

variable {g : Grammar} {t : Text} {policy : IllegalPolicy}

/-- What a scan returns is what a state concludes with that it comes to. -/
theorem exists_concludes_of_scan_eq_ok {steps : Nat} {s : State} {r : Tokenization}
    (h : scan g t policy steps s = .ok r) :
    ∃ s', Relation.ReflTransGen (Advances g t) s s' ∧ Concludes g t policy s' r := by
  induction steps generalizing s with
  | zero => cases h; exact ⟨s, .refl, .exhausted⟩
  | succ steps ih =>
    rw [scan] at h
    split at h
    · rename_i id index span s₁ hnext
      split at h
      · rename_i s₂ hbegin
        obtain ⟨s', hs, hr⟩ := ih h
        exact ⟨s', .head (.begin hnext hbegin) hs, hr⟩
      · cases h
    · rename_i level span s₁ hnext
      obtain ⟨s', hs, hr⟩ := ih h
      exact ⟨s', .head (.finish hnext) hs, hr⟩
    · rename_i i s₁ hnext
      split at h
      · cases h
      · cases h; exact ⟨s, .refl, .illegal hnext rfl⟩
    · rename_i s₁ hnext
      cases h; exact ⟨s, .refl, .done hnext⟩

end Tinct.Scan
