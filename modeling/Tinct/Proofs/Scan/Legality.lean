import Tinct.Proofs.Scan.Termination

/-!
# No illegal sequence is overlooked

A scan steps over an illegal sequence of the grammar only where the sequence starts inside a lexeme,
and it stops at nothing that is not illegal:

* `Matcher.HitsAt`: a match that is not empty starts at a position;
* `Consumes`: the lexemes behind which a scan has gone on;
* `nextStep_heeds`: no step is taken at or behind an illegal sequence that lies ahead;
* `Trace.steppedOver`: so whatever illegal sequence the position has passed starts inside a lexeme;
* `illegal_hits_within_lexemes`: what a scan that aborts says of all illegal sequences.
-/

namespace Tinct

/-- A match that is not empty starts at the position `p`. -/
def Matcher.HitsAt (m : Matcher) (t : Text) (p : Nat) : Prop :=
  ∃ s, m.find? t p false = some s ∧ s.start = p

/-- What a search finds is a hit. -/
theorem Matcher.hitsAt_of_find? {m : Matcher} {t : Text} {i : Nat} {s : Span}
    (h : m.find? t i false = some s) : m.HitsAt t s.start := by
  have hfirst := m.isFirst_find? t false i
  rw [h] at hfirst
  have hlater : IsFirst (m.acceptedFrom? t false) s.start (some s) :=
    hfirst.later hfirst.1 fun s' hs' => Nat.le_of_eq (by rw [Option.some.inj hs'])
  exact ⟨s, (m.isFirst_find? t false s.start).unique hlater, rfl⟩

/-- A search finds the first hit, so it finds one that is no later than a hit ahead. -/
theorem Matcher.HitsAt.exists_find? {m : Matcher} {t : Text} {p : Nat} (h : m.HitsAt t p)
    {i : Nat} (hi : i ≤ p) : ∃ s, m.find? t i false = some s ∧ s.start ≤ p := by
  obtain ⟨s, hs, rfl⟩ := h
  have hstop : m.acceptedFrom? t false s.start = some s.stop := by
    have hfirst := m.isFirst_find? t false s.start
    rw [hs] at hfirst
    exact hfirst.2.1
  have hfirst := m.isFirst_find? t false i
  cases hfound : m.find? t i false with
  | none =>
    rw [hfound] at hfirst
    rw [hfirst s.start hi] at hstop
    cases hstop
  | some s' =>
    rw [hfound] at hfirst
    refine ⟨s', rfl, Nat.le_of_not_lt fun hlt => ?_⟩
    rw [hfirst.2.2 s.start hi hlt] at hstop
    cases hstop

namespace Scan

/-! ## What decides a step -/

/-- The step lets nothing pass that is illegal at the position `i`. -/
def Step.Heeds (i : Nat) : Step → Prop
  | .begin _ _ span | .finish _ span => span.start < i
  | .illegal j => j = i
  | .done => False

theorem decideFirst_heeds (continues : Bool) (finish : Option (Nat × Span)) (i : Nat)
    (begin : Option (Nat × Nat × Span)) :
    (decideFirst continues finish (some i) begin).Heeds i := by
  by_cases hstops : (finish.all (i ≤ ·.2.start) && begin.all (i ≤ ·.2.2.start)) = true
  · have hfilter : (some i).filter (fun i => finish.all (i ≤ ·.2.start) &&
        begin.all (i ≤ ·.2.2.start)) = some i := by
      rw [Option.filter_some, if_pos hstops]
    unfold decideFirst
    rw [hfilter]
    exact rfl
  · have hfilter : (some i).filter (fun i => finish.all (i ≤ ·.2.start) &&
        begin.all (i ≤ ·.2.2.start)) = none := by
      rw [Option.filter_some, if_neg hstops]
    unfold decideFirst
    rw [hfilter]
    rcases finish with _ | ⟨level, e⟩ <;> rcases begin with _ | ⟨id, index, b⟩
    · exact absurd rfl hstops
    · simpa [Step.Heeds] using hstops
    · simpa [Step.Heeds] using hstops
    · -- the one that comes first starts in front of the illegal sequence, since one of them does
      have hfront : e.start < i ∨ b.start < i := by
        by_contra h
        exact hstops (by simp; omega)
      dsimp only
      split
      · show b.start < i
        omega
      · split
        · show b.start < i
          omega
        · show e.start < i
          omega

section hits
variable {g : Grammar} {t : Text} {s s' : State} {step : Step} {p : Nat}

/-- An illegal sequence ahead is heeded by the next step. -/
theorem nextStep_heeds (hg : g.Numbered) (hs : Reachable g t s)
    (hnext : nextStep g t s = (step, s')) {m : Matcher} (hm : g.illegal = some m)
    (hp : m.HitsAt t p) (hle : s.position ≤ p) : ∃ i, i ≤ p ∧ step.Heeds i := by
  obtain ⟨found, hfound, hstart⟩ := hp.exists_find? hle
  have hmem : found.start ∈ illegals g t s := by
    refine List.mem_filterMap.mpr ⟨g.illegal, by simp, ?_⟩
    rw [hm, Option.bind_some, hfound, Option.map_some]
  obtain ⟨i, hmin⟩ := Option.isSome_iff_exists.mp (List.isSome_min?_of_mem hmem)
  have hle' : i ≤ found.start := (List.min?_eq_some_iff.mp hmin).2 _ hmem
  have hstep := nextStep_eq_arbitrate hg hs
  rw [hnext, arbitrate, hmin] at hstep
  refine ⟨i, Nat.le_trans hle' hstart, ?_⟩
  rw [show step = _ from hstep]
  exact decideFirst_heeds _ _ i _

/-- A scan stops at a hit of what is illegal in the innermost mode or in the grammar. -/
theorem hitsAt_of_nextStep_illegal (hg : g.Numbered) (hs : Reachable g t s)
    (hnext : nextStep g t s = (.illegal p, s')) :
    ∃ m, (g.illegal = some m ∨ s.top.mode.illegal = some m) ∧ m.HitsAt t p := by
  have hstep := nextStep_eq_arbitrate hg hs
  rw [hnext, arbitrate, ← choose_eq] at hstep
  have hmem := (List.min?_eq_some_iff.mp (choose_eq_illegal hstep.symm)).1
  obtain ⟨m?, hm?, hfound⟩ := List.mem_filterMap.mp hmem
  obtain ⟨span, hspan, rfl⟩ := Option.map_eq_some_iff.mp hfound
  obtain ⟨m, rfl, hm⟩ := Option.bind_eq_some_iff.mp hspan
  refine ⟨m, ?_, Matcher.hitsAt_of_find? hm⟩
  obtain hown | hgeneral := List.mem_pair.mp hm?
  · exact .inr hown.symm
  · exact .inl hgeneral.symm

end hits

/-! ## Lexemes that a scan has consumed -/

/-- The lexeme at which a region begins or ends. -/
def Step.lexeme? : Step → Option Span
  | .begin _ _ span | .finish _ span => some span
  | .illegal _ | .done => none

/-- One of the steps of a trace is a begin or an end at the lexeme `span`, and the scan has gone on
behind it. -/
def Consumes (g : Grammar) (t : Text) (steps : List Step) (span : Span) : Prop :=
  ∃ step front s s', step :: front <:+ steps ∧ Trace g t front s ∧ Takes g t step s s' ∧
    step.lexeme? = some span ∧ s'.position = span.stop

/-- The position `p` lies inside a lexeme that a trace has consumed, behind its start. -/
def SteppedOver (g : Grammar) (t : Text) (steps : List Step) (p : Nat) : Prop :=
  ∃ span, Consumes g t steps span ∧ span.start < p ∧ p < span.stop

section trace
variable {g : Grammar} {t : Text} {steps : List Step} {s s' : State} {step : Step} {p : Nat}

theorem SteppedOver.cons (h : SteppedOver g t steps p) (step : Step) :
    SteppedOver g t (step :: steps) p := by
  obtain ⟨span, ⟨step', front, s, s', hsuffix, hrest⟩, hp⟩ := h
  exact ⟨span, ⟨step', front, s, s', hsuffix.trans (List.suffix_cons _ _), hrest⟩, hp⟩

/-- A scan goes on behind an end lexeme, or in front of it. -/
theorem State.finish_position (level : Nat) (span : Span) :
    (s.finish g t level span).position = span.start ∨
      (s.finish g t level span).position = span.stop := by
  rw [finish_eq, cascade_position]
  generalize s.closeInner g t span.start level = s
  unfold closeEnded
  dsimp only
  split
  · exact .inl rfl
  split
  · exact .inr rfl
  · split
    · exact .inr rfl
    · exact .inr rfl

/-- A step goes on in front of its lexeme, or the lexeme has been consumed. -/
theorem Takes.exists_lexeme (hg : g.Numbered) (h : Trace g t steps s)
    (hstep : Takes g t step s s') : ∃ span, step.lexeme? = some span ∧ s.position ≤ span.start ∧
      (s'.position = span.start ∨ s'.position = span.stop) := by
  obtain ⟨id, index, span, rfl, hmoves⟩ | ⟨level, span, rfl, hmoves⟩ := h.step_cases hg hstep
  · exact ⟨span, rfl, hmoves.within.1, .inr hmoves.position⟩
  · refine ⟨span, rfl, hmoves.within.1, ?_⟩
    cases hstep with
    | finish hnext => exact State.finish_position level span

/-- Whatever is illegal in the grammar and has been passed lies inside a lexeme. -/
theorem Trace.steppedOver (hg : g.Numbered) (h : Trace g t steps s) {m : Matcher}
    (hm : g.illegal = some m) (hp : m.HitsAt t p) (hlt : p < s.position) :
    SteppedOver g t steps p := by
  induction h with
  | start => exact absurd hlt (Nat.not_lt_zero p)
  | @step steps s s' step h hstep ih =>
    by_cases hbehind : p < s.position
    · exact (ih hbehind).cons step
    · -- the position moves over the hit, so the lexeme begins in front of it and is consumed
      obtain ⟨span, hlexeme, -, hposition⟩ := hstep.exists_lexeme hg h
      obtain ⟨s₁, hnext⟩ : ∃ s₁, nextStep g t s = (step, s₁) := by
        cases hstep with
        | begin hnext _ => exact ⟨_, hnext⟩
        | finish hnext => exact ⟨_, hnext⟩
      obtain ⟨i, hi, hheeds⟩ := nextStep_heeds hg h.reachable hnext hm hp (Nat.le_of_not_lt hbehind)
      have hstart : span.start < p := by
        cases step with
        | begin id index span' =>
          cases hlexeme
          exact Nat.lt_of_lt_of_le hheeds hi
        | finish level span' =>
          cases hlexeme
          exact Nat.lt_of_lt_of_le hheeds hi
        | illegal j => cases hlexeme
        | done => cases hlexeme
      have hstop : s'.position = span.stop := hposition.resolve_left (by omega)
      exact ⟨span, ⟨step, steps, s, s', List.suffix_refl _, h, hstep, hlexeme, hstop⟩, hstart,
        hstop ▸ hlt⟩

end trace
end Scan

open Scan

/-- No illegal sequence is overlooked, and none is made up. Where a scan that aborts succeeds, each
hit of what is illegal in the grammar lies inside a lexeme that the scan has consumed. Where it
fails, it does so at a hit of what is illegal in the grammar or in the mode that is innermost there,
and each hit of what is illegal in the grammar in front of that one lies inside a consumed
lexeme. -/
theorem illegal_hits_within_lexemes {d : GrammarDef} {g : Grammar} {source : String}
    (hd : Grammar.compile d = .ok g) :
    (∀ r, g.tokenize .abort source = .ok r →
      ∃ steps s, Trace g (.ofString source) steps s ∧
        Ends g (.ofString source) .abort s (.ok r) ∧
        ∀ m, g.illegal = some m → ∀ p, m.HitsAt (.ofString source) p →
          SteppedOver g (.ofString source) steps p) ∧
    ∀ name o, g.tokenize .abort source = .error (.illegalSequence name o) →
      ∃ steps s i, Trace g (.ofString source) steps s ∧
        Ends g (.ofString source) .abort s (.error (.illegalSequence name o)) ∧
        o = (Text.ofString source).offset i ∧
        (∃ m, (g.illegal = some m ∨ s.top.mode.illegal = some m) ∧
          m.HitsAt (.ofString source) i) ∧
        ∀ m, g.illegal = some m → ∀ p, m.HitsAt (.ofString source) p → p < i →
          SteppedOver g (.ofString source) steps p := by
  have hg := Grammar.compile_numbered hd
  generalize ht : Text.ofString source = t
  constructor
  · intro r hr
    obtain ⟨steps, s, htrace, hends⟩ := (tokenize_eq_iff hg).mp hr
    rw [ht] at htrace hends
    refine ⟨steps, s, htrace, hends, fun m hm p hp => htrace.steppedOver hg hm hp ?_⟩
    refine Nat.lt_of_not_le fun hle => ?_
    cases hends with
    | done hnext =>
      obtain ⟨i, -, hheeds⟩ := nextStep_heeds hg htrace.reachable hnext hm hp hle
      exact hheeds
    | recovered _ hpolicy => cases hpolicy
  · intro name o ho
    obtain ⟨steps, s, htrace, hends⟩ := (tokenize_eq_iff hg).mp ho
    rw [ht] at htrace hends
    have hends' := hends
    cases hends' with
    | @aborted s₁ i hnext _ =>
      have hi := (nextStep_illegal_within (reachable_recalls htrace.reachable) hnext).2
      refine ⟨steps, s, i, htrace, hends, Text.offsets_getD t hi,
        hitsAt_of_nextStep_illegal hg htrace.reachable hnext, fun m hm p hp hlt => ?_⟩
      refine htrace.steppedOver hg hm hp (Nat.lt_of_not_le fun hle => ?_)
      obtain ⟨j, hj, hheeds⟩ := nextStep_heeds hg htrace.reachable hnext hm hp hle
      have hij : i = j := hheeds
      omega

/-- Notes between lexemes in which an exclamation mark is legal, as it is nowhere else. -/
def notesDef : GrammarDef where
  name := "notes"
  illegal := some (.source "!")
  contains := [.ref "note"]
  modes := [("note",
    { scope := some "note", begin := some (.source "<!"), finish := some (.source ";!") })]

theorem compile_notesDef : (Grammar.compile notesDef).toOption.isSome = true := by
  decide +kernel

def notes : Grammar := (Grammar.compile notesDef).toOption.get compile_notesDef

theorem compile_eq_notes : Grammar.compile notesDef = .ok notes :=
  eq_ok_of_toOption_eq_some (Option.some_get compile_notesDef).symm

theorem illegal_hits_within_lexemes_notes :
    Grammar.compile notesDef = .ok notes ∧ ∃ m, notes.illegal = some m ∧
      (m.HitsAt (.ofString "<!b;!") 4 ∧ ∃ r steps s,
        notes.tokenize .abort "<!b;!" = .ok r ∧ Trace notes (.ofString "<!b;!") steps s ∧
          SteppedOver notes (.ofString "<!b;!") steps 4) ∧
      m.HitsAt (.ofString "<!!") 1 ∧ ∃ steps s,
        notes.tokenize .abort "<!!" = .error (.illegalSequence notes.name 2) ∧
          Trace notes (.ofString "<!!") steps s ∧ SteppedOver notes (.ofString "<!!") steps 1 := by
  obtain ⟨m, hm, hhits⟩ : ∃ m, notes.illegal = some m ∧
      ((m.find? (.ofString "<!b;!") 4 false, m.find? (.ofString "<!!") 1 false) :
        Option Span × Option Span) = (some ⟨4, 5⟩, some ⟨1, 2⟩) :=
    Option.map_eq_some_iff.mp (by decide +kernel)
  obtain ⟨hlast, hfirst⟩ := Prod.mk.inj hhits
  obtain ⟨r, hr, -⟩ : ∃ r, notes.tokenize .abort "<!b;!" = .ok r ∧ r.illegal = none :=
    exists_ok (by decide +kernel)
  have ho : notes.tokenize .abort "<!!" = .error (.illegalSequence notes.name 2) := by
    decide +kernel
  obtain ⟨hsucceeds, -⟩ := @illegal_hits_within_lexemes notesDef notes "<!b;!" compile_eq_notes
  obtain ⟨-, hfails⟩ := @illegal_hits_within_lexemes notesDef notes "<!!" compile_eq_notes
  obtain ⟨steps, s, htrace, -, hall⟩ := hsucceeds r hr
  obtain ⟨steps', s', i, htrace', -, hi, -, hall'⟩ := hfails _ _ ho
  have hlt : 1 < i := by
    refine Nat.lt_of_not_le fun hle => ?_
    have hoffset := (Text.ofString "<!!").offset_le_offset hle
    rw [← hi] at hoffset
    exact absurd hoffset (by decide +kernel)
  exact ⟨compile_eq_notes, m, hm,
    ⟨⟨_, hlast, rfl⟩, r, steps, s, hr, htrace, hall m hm 4 ⟨_, hlast, rfl⟩⟩,
    ⟨_, hfirst, rfl⟩, steps', s', ho, htrace', hall' m hm 1 ⟨_, hfirst, rfl⟩ hlt⟩

end Tinct
