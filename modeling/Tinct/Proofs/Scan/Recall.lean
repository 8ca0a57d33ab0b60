import Tinct.Proofs.Regex.Bounds
import Tinct.Proofs.Scan.Reachable

/-!
# What a scan remembers

A scan keeps the answers of earlier searches. Here is what they are answers to, and what looking for
the next step does to a state:

* `State.Recalls`: every cache holds what a search of its own matcher has found, whichever frame it
  belongs to; `reachable_recalls` has it of every state that a scan comes to;
* `nextStep_forget`: looking for the next step changes nothing but what is remembered;
* `nextStep_begin_within`, `nextStep_finish_within`, `nextStep_illegal_within`: what comes next lies
  between the position of the scan and the end of the text.
-/

namespace Tinct.Scan

/-! ## One cache -/

namespace Cache

/-- What the cache holds is what a search of `m` has found. -/
def Recalls (t : Text) (m : Matcher) (allowEmpty : Bool) (c : Cache) : Prop :=
  ∀ i, c.searched = some i → c.found = m.find? t i allowEmpty

variable {t : Text} {m : Matcher} {allowEmpty : Bool} {c : Cache} {i : Nat}

theorem recalls_empty : Recalls t m allowEmpty {} := nofun

theorem stands_iff : c.stands i = true ↔
    ∃ j, c.searched = some j ∧ j ≤ i ∧ ∀ s, c.found = some s → i ≤ s.start := by
  unfold stands
  cases c.searched with
  | none => simp
  | some j => cases c.found <;> simp

theorem find_recalls (h : c.Recalls t m allowEmpty) :
    (c.find m t i allowEmpty).2.Recalls t m allowEmpty := by
  unfold find
  split
  · exact h
  · intro j hj
    cases hj
    rfl

/-- What a cache answers lies behind the position it is asked for, whenever it was found. -/
theorem find_within {s : Span} (h : c.Recalls t m allowEmpty)
    (hs : (c.find m t i allowEmpty).1 = some s) : s.Within i t.size := by
  unfold find at hs
  split at hs
  · rename_i hstands
    obtain ⟨j, hj, -, hstart⟩ := stands_iff.mp hstands
    have hfound := h j hj
    rw [show c.found = some s from hs] at hfound
    exact ⟨hstart s hs, (Matcher.find?_bounds hfound.symm).2⟩
  · exact Matcher.find?_bounds hs

end Cache

/-! ## The caches of a state -/

/-- What the caches of candidates hold, as far as there are any. -/
def CandidatesRecall (t : Text) : List (Nat × Nat × Matcher) → List Cache → Prop
  | (_, _, m) :: cs, c :: caches => c.Recalls t m true ∧ CandidatesRecall t cs caches
  | _, _ => True

theorem CandidatesRecall.head {t : Text} {id index : Nat} {m : Matcher}
    {cs : List (Nat × Nat × Matcher)} {caches : List Cache}
    (h : CandidatesRecall t ((id, index, m) :: cs) caches) :
    (caches.headD {}).Recalls t m true := by
  cases caches with
  | nil => exact Cache.recalls_empty
  | cons c caches => exact h.1

theorem CandidatesRecall.tail {t : Text} {c : Nat × Nat × Matcher}
    {cs : List (Nat × Nat × Matcher)} {caches : List Cache}
    (h : CandidatesRecall t (c :: cs) caches) : CandidatesRecall t cs caches.tail := by
  cases caches with
  | nil => cases cs <;> trivial
  | cons c caches => exact h.2

/-- What the caches of a frame hold. -/
structure Frame.Recalls (g : Grammar) (t : Text) (f : Frame) : Prop where
  finish : ∀ m, f.finish = some m → f.endCache.Recalls t m true
  illegal : ∀ m, f.mode.illegal = some m → f.illegalCache.Recalls t m false
  begins : CandidatesRecall t (candidates g f.mode) f.beginCaches

/-- A frame that has been asked for nothing has nothing to remember. -/
theorem Frame.recalls_new (g : Grammar) (t : Text) (mode : Mode) (finish : Option Matcher)
    (start : Nat) (scope : Option Scope) :
    Frame.Recalls g t { mode, finish, start, textScope := scope } where
  finish _ _ := Cache.recalls_empty
  illegal _ _ := Cache.recalls_empty
  begins := by unfold CandidatesRecall; split <;> trivial

/-- What the caches of a state hold. -/
structure State.Recalls (g : Grammar) (t : Text) (s : State) : Prop where
  frames : ∀ f ∈ s.frames, f.Recalls g t
  illegal : ∀ m, g.illegal = some m → s.grammarIllegal.Recalls t m false

theorem State.initial_recalls (g : Grammar) (t : Text) : (State.initial g).Recalls g t where
  frames f hf := by
    rw [List.mem_singleton.mp hf]
    exact Frame.recalls_new g t g.root none 0 none
  illegal _ _ := Cache.recalls_empty

/-! ## The searches for the next step -/

/-- The candidate that decides so far, when one more has been looked at. -/
def better {α : Type} (key : α → Span) (best : Option α) : Option α → Option α
  | some a => if earlier (key a) (best.map key) then some a else best
  | none => best

theorem better_cases {α : Type} (key : α → Span) (best found : Option α) :
    better key best found = best ∨ better key best found = found := by
  unfold better
  split
  · split
    · exact .inr rfl
    · exact .inl rfl
  · exact .inl rfl

/-- Where a frame finds its own end, and the frame with what it remembers of it. -/
def Frame.askEnd (t : Text) (i : Nat) (f : Frame) : Option Span × Frame :=
  match f.finish with
  | some m =>
    let (found, cache) := f.endCache.find m t i true
    (found, { f with endCache := cache })
  | none => (none, f)

/-- Where a candidate is found to begin, and what it remembers of it. -/
def Cache.askBegin (m : Matcher) (t : Text) (i : Nat) (blocked : Bool) (c : Cache) :
    Option Span × Cache :=
  let (found, cache) := c.find m t i true
  if found = some ⟨i, i⟩ ∧ blocked then
    if i < t.size then cache.find m t (i + 1) true else (none, cache)
  else (found, cache)

/-- Where an illegal sequence is found, if a mode has any, and what is remembered of it. -/
def Cache.askIllegal (m? : Option Matcher) (t : Text) (i : Nat) (c : Cache) :
    Option Span × Cache :=
  match m? with
  | some m => c.find m t i false
  | none => (none, c)

/-- The start of the earlier one of two spans. -/
def firstStart : Option Span → Option Span → Option Nat
  | some a, some b => some (min a.start b.start)
  | a, b => (a.or b).map (·.start)

section searches
variable {g : Grammar} {t : Text} {i : Nat}

theorem findEnd_cons (level : Nat) (best : Option (Nat × Span)) (f : Frame) (fs : List Frame) :
    findEnd t i level best (f :: fs) =
      let best := better (·.2) best ((f.askEnd t i).1.map (level, ·))
      if f.mode.flags.endsWithParent then
        let (best, fs) := findEnd t i (level + 1) best fs
        (best, (f.askEnd t i).2 :: fs)
      else (best, (f.askEnd t i).2 :: fs) := by
  conv => lhs; unfold findEnd
  obtain ⟨mode, finish, start, scope, endCache, illegalCache, beginCaches⟩ := f
  cases finish with
  | none => rfl
  | some m =>
    rcases hfound : endCache.find m t i true with ⟨_ | s, cache⟩ <;>
      simp only [Frame.askEnd, better, hfound, Option.map_some, Option.map_none]

theorem findBegin_cons (blocked : Nat → Bool) (best : Option (Nat × Nat × Span))
    (id index : Nat) (m : Matcher) (cs : List (Nat × Nat × Matcher)) (caches : List Cache) :
    findBegin t i blocked best ((id, index, m) :: cs) caches =
      let (found, cache) := (caches.headD {}).askBegin m t i (blocked id)
      let best := better (·.2.2) best (found.map (id, index, ·))
      if best.any (·.2.2.start == i) then (best, cache :: caches.tail)
      else
        let (best, caches) := findBegin t i blocked best cs caches.tail
        (best, cache :: caches) := by
  conv => lhs; unfold findBegin
  rcases hfound : (caches.headD {}).askBegin m t i (blocked id) with ⟨found, cache⟩
  unfold Cache.askBegin at hfound
  cases found <;> simp only [hfound, better, Option.map_some, Option.map_none] <;> rfl

/-! ### A frame is asked where it ends -/

theorem Frame.askEnd_recalls {f : Frame} (h : f.Recalls g t) : (f.askEnd t i).2.Recalls g t := by
  unfold Frame.askEnd
  split
  · rename_i m hm
    refine ⟨fun m' hm' => ?_, h.illegal, h.begins⟩
    cases hm.symm.trans hm'
    exact Cache.find_recalls (h.finish m hm)
  · exact h

theorem Frame.askEnd_within {f : Frame} {s : Span} (h : f.Recalls g t)
    (hs : (f.askEnd t i).1 = some s) : s.Within i t.size := by
  cases hm : f.finish with
  | none => simp only [Frame.askEnd, hm] at hs; cases hs
  | some m =>
    simp only [Frame.askEnd, hm] at hs
    exact Cache.find_within (h.finish m hm) hs

theorem findEnd_recalls {level : Nat} {best : Option (Nat × Span)} {fs : List Frame}
    (h : ∀ f ∈ fs, f.Recalls g t) : ∀ f ∈ (findEnd t i level best fs).2, f.Recalls g t := by
  induction fs generalizing level best with
  | nil => simpa only [findEnd] using h
  | cons f fs ih =>
    obtain ⟨hf, hfs⟩ := List.forall_mem_cons.mp h
    rw [findEnd_cons]
    dsimp only
    split
    · exact List.forall_mem_cons.mpr ⟨Frame.askEnd_recalls hf, ih hfs⟩
    · exact List.forall_mem_cons.mpr ⟨Frame.askEnd_recalls hf, hfs⟩

theorem findEnd_within {level : Nat} {best : Option (Nat × Span)} {fs : List Frame}
    (h : ∀ f ∈ fs, f.Recalls g t) (hbest : ∀ a, best = some a → a.2.Within i t.size) :
    ∀ a, (findEnd t i level best fs).1 = some a → a.2.Within i t.size := by
  induction fs generalizing level best with
  | nil => exact hbest
  | cons f fs ih =>
    obtain ⟨hf, hfs⟩ := List.forall_mem_cons.mp h
    have hbetter : ∀ a, better (·.2) best ((f.askEnd t i).1.map (level, ·)) = some a →
        a.2.Within i t.size := by
      intro a ha
      rcases better_cases (·.2) best ((f.askEnd t i).1.map (level, ·)) with hb | hb <;>
        rw [hb] at ha
      · exact hbest a ha
      · obtain ⟨s, hs, rfl⟩ := Option.map_eq_some_iff.mp ha
        exact Frame.askEnd_within hf hs
    rw [findEnd_cons]
    dsimp only
    split
    · exact ih hfs hbetter
    · exact hbetter

/-! ### A candidate is asked where it begins -/

theorem Cache.askBegin_recalls {m : Matcher} {blocked : Bool} {c : Cache}
    (h : c.Recalls t m true) : (c.askBegin m t i blocked).2.Recalls t m true := by
  have hfind : (c.find m t i true).2.Recalls t m true := Cache.find_recalls h
  unfold Cache.askBegin
  dsimp only
  split
  · split
    · exact Cache.find_recalls hfind
    · exact hfind
  · exact hfind

theorem Cache.askBegin_within {m : Matcher} {blocked : Bool} {c : Cache} {s : Span}
    (h : c.Recalls t m true) (hs : (c.askBegin m t i blocked).1 = some s) :
    s.Within i t.size := by
  unfold Cache.askBegin at hs
  dsimp only at hs
  split at hs
  · split at hs
    · exact (Cache.find_within (Cache.find_recalls h) hs).mono (Nat.le_succ i)
    · cases hs
  · exact Cache.find_within h hs

theorem findBegin_recalls {blocked : Nat → Bool} {best : Option (Nat × Nat × Span)}
    {cs : List (Nat × Nat × Matcher)} {caches : List Cache} (h : CandidatesRecall t cs caches) :
    CandidatesRecall t cs (findBegin t i blocked best cs caches).2 := by
  induction cs generalizing best caches with
  | nil => trivial
  | cons c cs ih =>
    obtain ⟨id, index, m⟩ := c
    rw [findBegin_cons]
    dsimp only
    split
    · exact ⟨Cache.askBegin_recalls h.head, h.tail⟩
    · exact ⟨Cache.askBegin_recalls h.head, ih h.tail⟩

theorem findBegin_within {blocked : Nat → Bool} {best : Option (Nat × Nat × Span)}
    {cs : List (Nat × Nat × Matcher)} {caches : List Cache} (h : CandidatesRecall t cs caches)
    (hbest : ∀ a, best = some a → a.2.2.Within i t.size) :
    ∀ a, (findBegin t i blocked best cs caches).1 = some a → a.2.2.Within i t.size := by
  induction cs generalizing best caches with
  | nil => exact hbest
  | cons c cs ih =>
    obtain ⟨id, index, m⟩ := c
    rw [findBegin_cons]
    dsimp only
    generalize hask : (caches.headD {}).askBegin m t i (blocked id) = asked
    have hbetter : ∀ a, better (·.2.2) best (asked.1.map (id, index, ·)) = some a →
        a.2.2.Within i t.size := by
      intro a ha
      rcases better_cases (·.2.2) best (asked.1.map (id, index, ·)) with hb | hb <;> rw [hb] at ha
      · exact hbest a ha
      · obtain ⟨s, hs, rfl⟩ := Option.map_eq_some_iff.mp ha
        exact Cache.askBegin_within h.head (hask ▸ hs)
    split
    · exact hbetter
    · exact ih h.tail hbetter

/-! ### Illegal sequences are asked for -/

theorem Cache.askIllegal_recalls {m? : Option Matcher} {c : Cache}
    (h : ∀ m, m? = some m → c.Recalls t m false) :
    ∀ m, m? = some m → (c.askIllegal m? t i).2.Recalls t m false := by
  intro m hm
  cases hm
  exact Cache.find_recalls (h m rfl)

theorem Cache.askIllegal_within {m? : Option Matcher} {c : Cache} {s : Span}
    (h : ∀ m, m? = some m → c.Recalls t m false) (hs : (c.askIllegal m? t i).1 = some s) :
    s.Within i t.size := by
  cases m? with
  | none => cases hs
  | some m => exact Cache.find_within (h m rfl) hs

theorem firstStart_mem {a b : Option Span} {j : Nat} (h : firstStart a b = some j) :
    ∃ s, (a = some s ∨ b = some s) ∧ s.start = j := by
  rcases a with _ | a <;> rcases b with _ | b
  · cases h
  · cases h; exact ⟨b, .inr rfl, rfl⟩
  · cases h; exact ⟨a, .inl rfl, rfl⟩
  · cases h
    rcases Nat.le_total a.start b.start with hab | hab
    · exact ⟨a, .inl rfl, (Nat.min_eq_left hab).symm⟩
    · exact ⟨b, .inr rfl, (Nat.min_eq_right hab).symm⟩

/-- What is illegal around a mode; the root has it as its own. -/
def around (g : Grammar) (m : Mode) : Option Matcher := if m.isRoot then none else g.illegal

theorem findIllegal_eq (s : State) :
    findIllegal g t s =
      let (own, cache) := s.top.illegalCache.askIllegal s.top.mode.illegal t s.position
      let (general, grammarIllegal) :=
        s.grammarIllegal.askIllegal (around g s.top.mode) t s.position
      (firstStart own general,
        { s with top := { s.top with illegalCache := cache }, grammarIllegal }) := by
  obtain ⟨⟨mode, finish, start, scope, endCache, illegalCache, beginCaches⟩, below, position,
    flushed, log, grammarIllegal, emptyBegins⟩ := s
  unfold findIllegal around
  dsimp only
  cases mode.illegal with
  | none => cases g.illegal <;> cases mode.isRoot <;> rfl
  | some m => cases g.illegal <;> cases mode.isRoot <;> rfl

end searches

/-! ## The next step -/

namespace State

/-- Where the innermost region ends or one around it, and the state that has looked for it. -/
def askEnds (t : Text) (s : State) : Option (Nat × Span) × State :=
  let (finish, frames) := findEnd t s.position 0 none s.frames
  (finish, match frames with
    | top :: below => { s with top, below }
    | [] => s)

/-- What begins inside the innermost region, and the state that has looked for it. -/
def askBegins (g : Grammar) (t : Text) (s : State) : Option (Nat × Nat × Span) × State :=
  let (begin, caches) := findBegin t s.position (s.emptyBegins.contains s.position) none
    (candidates g s.top.mode) s.top.beginCaches
  (begin, { s with top := { s.top with beginCaches := caches } })

end State

theorem nextStep_eq (g : Grammar) (t : Text) (s : State) :
    nextStep g t s =
      let (finish, s) := s.askEnds t
      let (illegal, s) := findIllegal g t s
      let (begin, s) := s.askBegins g t
      (choose s.top.mode.flags.preferContinuation finish illegal begin, s) := rfl

/-! ### It changes nothing but what is remembered -/

/-- A frame as it is when it has been asked for nothing. -/
def Frame.forget (f : Frame) : Frame :=
  { f with endCache := {}, illegalCache := {}, beginCaches := [] }

/-- A state that remembers nothing. -/
def State.forget (s : State) : State :=
  { s with top := s.top.forget, below := s.below.map Frame.forget, grammarIllegal := {} }

@[simp] theorem State.forget_frames (s : State) : s.forget.frames = s.frames.map Frame.forget :=
  rfl

section forget
variable {g : Grammar} {t : Text} {i : Nat} {s s' : State}

theorem Frame.askEnd_forget (f : Frame) : (f.askEnd t i).2.forget = f.forget := by
  unfold Frame.askEnd
  split <;> rfl

theorem findEnd_forget {level : Nat} {best : Option (Nat × Span)} {fs : List Frame} :
    (findEnd t i level best fs).2.map Frame.forget = fs.map Frame.forget := by
  induction fs generalizing level best with
  | nil => rw [findEnd]
  | cons f fs ih =>
    rw [findEnd_cons]
    dsimp only
    split
    · rw [List.map_cons, Frame.askEnd_forget, ih, List.map_cons]
    · rw [List.map_cons, Frame.askEnd_forget, List.map_cons]

theorem State.askEnds_cases (t : Text) (s : State) :
    ∃ top below, findEnd t s.position 0 none s.frames = ((s.askEnds t).1, top :: below) ∧
      (s.askEnds t).2 = { s with top, below } := by
  have hforget : (findEnd t s.position 0 none s.frames).2.map Frame.forget =
      s.frames.map Frame.forget := findEnd_forget
  rcases hend : findEnd t s.position 0 none s.frames with ⟨finish, _ | ⟨top, below⟩⟩
  · rw [hend] at hforget; cases hforget
  · exact ⟨top, below, by simp only [State.askEnds, hend], by simp only [State.askEnds, hend]⟩

theorem State.askEnds_forget : (s.askEnds t).2.forget = s.forget := by
  obtain ⟨top, below, hend, hs⟩ := s.askEnds_cases t
  have hforget : (findEnd t s.position 0 none s.frames).2.map Frame.forget =
      s.frames.map Frame.forget := findEnd_forget
  rw [hend] at hforget
  obtain ⟨htop, hbelow⟩ := List.cons.inj hforget
  rw [hs]
  unfold State.forget
  rw [htop, hbelow]

theorem findIllegal_forget : (findIllegal g t s).2.forget = s.forget := by
  rw [findIllegal_eq]
  rfl

theorem State.askBegins_forget : (s.askBegins g t).2.forget = s.forget := rfl

/-- Looking for the next step changes nothing but what is remembered. -/
theorem nextStep_forget : (nextStep g t s).2.forget = s.forget := by
  rw [nextStep_eq]
  exact State.askBegins_forget.trans (findIllegal_forget.trans State.askEnds_forget)

end forget

/-! ### What is remembered stays right -/

section recalls
variable {g : Grammar} {t : Text} {s : State}

theorem State.askEnds_recalls (h : s.Recalls g t) : (s.askEnds t).2.Recalls g t := by
  obtain ⟨top, below, hend, hs⟩ := s.askEnds_cases t
  have hframes : ∀ f ∈ (findEnd t s.position 0 none s.frames).2, f.Recalls g t :=
    findEnd_recalls h.frames
  rw [hend] at hframes
  rw [hs]
  exact ⟨hframes, h.illegal⟩

theorem eq_of_around {m : Matcher} {mode : Mode} (h : around g mode = some m) :
    g.illegal = some m := by
  unfold around at h
  split at h
  · cases h
  · exact h

theorem findIllegal_recalls (h : s.Recalls g t) : (findIllegal g t s).2.Recalls g t := by
  obtain ⟨htop, hbelow⟩ := List.forall_mem_cons.mp h.frames
  rw [findIllegal_eq]
  refine ⟨List.forall_mem_cons.mpr ⟨⟨htop.finish, ?_, htop.begins⟩, hbelow⟩, fun m hm => ?_⟩
  · exact Cache.askIllegal_recalls htop.illegal
  · change ((s.grammarIllegal.askIllegal (around g s.top.mode) t s.position).2).Recalls t m false
    cases haround : around g s.top.mode with
    | none => exact h.illegal m hm
    | some m' =>
      cases hm.symm.trans (eq_of_around haround)
      exact Cache.find_recalls (h.illegal m hm)

theorem State.askBegins_recalls (h : s.Recalls g t) : (s.askBegins g t).2.Recalls g t := by
  obtain ⟨htop, hbelow⟩ := List.forall_mem_cons.mp h.frames
  refine ⟨List.forall_mem_cons.mpr ⟨⟨htop.finish, htop.illegal, ?_⟩, hbelow⟩, h.illegal⟩
  exact findBegin_recalls htop.begins

theorem nextStep_recalls (h : s.Recalls g t) : (nextStep g t s).2.Recalls g t := by
  rw [nextStep_eq]
  exact State.askBegins_recalls (findIllegal_recalls (State.askEnds_recalls h))

theorem State.begin_recalls {s s' : State} {id index : Nat} {span : Span}
    (h : s.begin g t id index span = .ok s') (hs : s.Recalls g t) : s'.Recalls g t where
  frames := State.begin_forall_frames h hs.frames
    fun _ finish start scope _ _ => Frame.recalls_new g t (g.mode id) finish start scope
  illegal m hm := by
    rw [State.begin_grammarIllegal h]
    exact hs.illegal m hm

theorem State.finish_recalls {level : Nat} {span : Span} (h : s.Recalls g t) :
    (s.finish g t level span).Recalls g t where
  frames := State.finish_forall_frames h.frames
  illegal m hm := by
    rw [State.finish_grammarIllegal]
    exact h.illegal m hm

/-- Whatever a scan remembers is what a search has found. -/
theorem reachable_recalls (h : Reachable g t s) : s.Recalls g t := by
  induction h with
  | refl => exact State.initial_recalls g t
  | tail _ hstep ih =>
    have hnext := nextStep_recalls ih
    cases hstep with
    | begin hs hbegin => rw [hs] at hnext; exact State.begin_recalls hbegin hnext
    | finish hs => rw [hs] at hnext; exact State.finish_recalls hnext

/-! ### What comes next lies ahead -/

theorem choose_eq_begin {continues : Bool} {finish : Option (Nat × Span)} {illegal : Option Nat}
    {begin : Option (Nat × Nat × Span)} {id index : Nat} {span : Span}
    (h : choose continues finish illegal begin = .begin id index span) :
    begin = some (id, index, span) := by
  unfold choose at h
  dsimp only at h
  split at h
  case h_5 => split at h <;> cases h; rfl
  all_goals cases h; try rfl

theorem choose_eq_finish {continues : Bool} {finish : Option (Nat × Span)} {illegal : Option Nat}
    {begin : Option (Nat × Nat × Span)} {level : Nat} {span : Span}
    (h : choose continues finish illegal begin = .finish level span) :
    finish = some (level, span) := by
  unfold choose at h
  dsimp only at h
  split at h
  case h_5 => split at h <;> cases h; rfl
  all_goals cases h; try rfl

theorem choose_eq_illegal {continues : Bool} {finish : Option (Nat × Span)}
    {illegal : Option Nat} {begin : Option (Nat × Nat × Span)} {i : Nat}
    (h : choose continues finish illegal begin = .illegal i) : illegal = some i := by
  unfold choose at h
  dsimp only at h
  split at h
  · rename_i hstops
    cases h
    exact (Option.filter_eq_some_iff.mp hstops).1
  · cases h
  · cases h
  · cases h
  · split at h <;> cases h

theorem State.position_eq {s s' : State} (h : s.forget = s'.forget) : s.position = s'.position :=
  (State.mk.inj h).2.2.1

theorem position_eq_of_nextStep {s s' : State} {step : Step} (h : nextStep g t s = (step, s')) :
    s'.position = s.position := by
  have hforget := nextStep_forget (g := g) (t := t) (s := s)
  rw [h] at hforget
  exact State.position_eq hforget

theorem nextStep_begin_within {s s' : State} {id index : Nat} {span : Span} (h : s.Recalls g t)
    (hnext : nextStep g t s = (.begin id index span, s')) : span.Within s'.position t.size := by
  rw [position_eq_of_nextStep hnext]
  rw [nextStep_eq] at hnext
  have hrecalls := findIllegal_recalls (State.askEnds_recalls h)
  have hfound := choose_eq_begin (congrArg Prod.fst hnext)
  have hpos : (findIllegal g t (s.askEnds t).2).2.position = s.position :=
    State.position_eq (findIllegal_forget.trans State.askEnds_forget)
  rw [← hpos]
  exact findBegin_within (hrecalls.frames _ (List.mem_cons_self ..)).begins
    (fun _ hnone => by cases hnone) _ hfound

theorem nextStep_finish_within {s s' : State} {level : Nat} {span : Span} (h : s.Recalls g t)
    (hnext : nextStep g t s = (.finish level span, s')) : span.Within s'.position t.size := by
  rw [position_eq_of_nextStep hnext]
  rw [nextStep_eq] at hnext
  have hfound := choose_eq_finish (congrArg Prod.fst hnext)
  exact findEnd_within h.frames (fun _ hnone => by cases hnone) _ hfound

theorem nextStep_illegal_within {s s' : State} {i : Nat} (h : s.Recalls g t)
    (hnext : nextStep g t s = (.illegal i, s')) : s'.position ≤ i ∧ i ≤ t.size := by
  rw [position_eq_of_nextStep hnext]
  rw [nextStep_eq] at hnext
  have hrecalls := State.askEnds_recalls h
  have hfound := choose_eq_illegal (congrArg Prod.fst hnext)
  rw [findIllegal_eq] at hfound
  obtain ⟨span, hspan, rfl⟩ := firstStart_mem hfound
  have hpos : (s.askEnds t).2.position = s.position := State.position_eq State.askEnds_forget
  have hwithin : span.Within s.position t.size := by
    rw [← hpos]
    rcases hspan with hspan | hspan
    · exact Cache.askIllegal_within (hrecalls.frames _ (List.mem_cons_self ..)).illegal hspan
    · exact Cache.askIllegal_within (fun m hm => hrecalls.illegal m (eq_of_around hm)) hspan
  exact ⟨hwithin.1, Nat.le_trans hwithin.2.1 hwithin.2.2⟩

end recalls

end Tinct.Scan
