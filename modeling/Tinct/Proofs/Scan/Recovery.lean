import Tinct.Proofs.Scan.Termination

/-!
# Illegal sequences

A scan that comes to an illegal sequence fails, or it closes all regions and takes the rest of the
text as it is. Up to there both are one scan:

* `reachable_legal`: before that no region closes because of an illegal sequence;
* `State.recover_events`: what a scan writes when it recovers;
* `tokenize_cases`: either both scans end in the same way, or both come to the same illegal
  sequence;
* `illegal_policies_agree`: how the results of the two scans determine each other.
-/

namespace Tinct

namespace Scan

/-! ## Closures before an illegal sequence -/

namespace Log

theorem token_closings (l : Log) (tok : Token) :
    closings (l.token tok).events = closings l.events := by
  obtain ⟨-, h⟩ | ⟨-, h⟩ | ⟨last, rest, hevents, -, -, -, h⟩ := l.token_cases tok
  · rw [h]
  · rw [h]
    rfl
  · rw [h, hevents]
    rfl

theorem text_closings (g : Grammar) (m : Mode) (scope : Option Scope) (t : Text) (span : Span)
    (l : Log) : closings (l.text g m scope t span).events = closings l.events :=
  text_induction (P := fun l' => closings l'.events = closings l.events) rfl span
    (fun l' _ h => (token_closings l' _).trans h) fun _ _ _ h _ _ => h

end Log

namespace State

/-- No region has closed because of an illegal sequence. -/
def Legal (s : State) : Prop := ∀ r ∈ closings s.log.events, r.closure ≠ .illegal

section moves
variable {g : Grammar} {t : Text} {s s' : State} {closure : Closure}

theorem Legal.of_closings (h : s.Legal) (heq : closings s'.log.events = closings s.log.events) :
    s'.Legal := by
  rwa [Legal, heq]

theorem flushTo_legal (i : Nat) (h : s.Legal) : (s.flushTo g t i).Legal := by
  unfold flushTo
  split
  · exact h
  · exact h.of_closings (Log.text_closings ..)

theorem delimiter_legal (span : Span) (scope : Scope) (h : s.Legal) :
    Legal { s with log := s.log.delimiter span scope } :=
  h.of_closings (Log.token_closings ..)

theorem pop_legal (hclosure : closure ≠ .illegal) (stop : Nat) (h : s.Legal) :
    (s.pop stop closure).Legal := by
  obtain ⟨-, hp⟩ | ⟨frame, below, -, hp⟩ := s.pop_cases stop closure
  · rwa [hp]
  · rw [hp]
    exact List.forall_mem_cons.mpr ⟨hclosure, h⟩

theorem cascade_legal {n : Nat} {closed : Mode} (h : s.Legal) : (s.cascade g t n closed).Legal :=
  cascade_induction g t (P := Legal) h fun _ hs => pop_legal (by decide) _ (flushTo_legal _ hs)

theorem closeEnded_legal {span : Span} (h : s.Legal) : (s.closeEnded g t span).Legal := by
  have hpop (i stop : Nat) : ((s.flushTo g t i).pop stop .matched).Legal :=
    pop_legal (by decide) stop (flushTo_legal i h)
  unfold closeEnded
  dsimp only
  split
  · exact hpop span.start span.start
  split
  · split
    · exact delimiter_legal span _ (hpop span.start span.start)
    · exact hpop span.start span.start
  · split
    · exact pop_legal (by decide) span.stop (delimiter_legal span _ (flushTo_legal span.start h))
    · exact hpop span.stop span.stop

theorem finish_legal {level : Nat} {span : Span} (h : s.Legal) :
    (s.finish g t level span).Legal := by
  rw [finish_eq]
  refine cascade_legal (closeEnded_legal ?_)
  exact closeInner_induction g t (P := Legal) h fun _ hs =>
    pop_legal (by decide) _ (flushTo_legal _ hs)

theorem enter_legal {m : Mode} {finish : Option Matcher} {span : Span} (h : s.Legal) :
    (s.enter g t m finish span).Legal := by
  have hpush {s : State} (start : Nat) (h : s.Legal) : (s.push m finish start).Legal := h
  unfold enter
  dsimp only
  split
  · split
    · exact hpush span.stop (delimiter_legal span _ (flushTo_legal span.start h))
    · exact delimiter_legal span _ (hpush span.start (flushTo_legal span.start h))
  · exact hpush _ (flushTo_legal _ h)

theorem begin_legal {id index : Nat} {span : Span} (h : s.Legal)
    (hbegin : s.begin g t id index span = .ok s') : s'.Legal := by
  obtain ⟨-, rfl⟩ | ⟨v, finish, -, -, hs'⟩ := begin_cases hbegin
  · exact h
  have hopen : (s.opening g t id finish span).Legal := by
    refine enter_legal (s := s.noteBegin g id span) (h.of_closings ?_)
    unfold noteBegin
    dsimp only
    rw [Log.scoreMode_events]
    split <;> rfl
  obtain rfl | rfl := hs'
  · exact cascade_legal (pop_legal (by decide) span.stop (flushTo_legal span.stop hopen))
  · exact hopen

theorem nextStep_legal (h : s.Legal) : (nextStep g t s).2.Legal := by
  have hlog : (nextStep g t s).2.log = s.log :=
    (State.mk.inj (nextStep_forget (g := g) (t := t) (s := s))).2.2.2.2.1
  rwa [Legal, hlog]

/-- As long as a scan goes on, no region closes because of an illegal sequence. -/
theorem reachable_legal (h : Reachable g t s) : s.Legal := by
  induction h with
  | refl => exact nofun
  | tail _ hstep ih =>
    have hnext := nextStep_legal (g := g) (t := t) ih
    cases hstep with
    | begin hs hbegin =>
      rw [hs] at hnext
      exact begin_legal hnext hbegin
    | finish hs =>
      rw [hs] at hnext
      exact finish_legal hnext

end moves
end State
end Scan

/-! ## What is written at an illegal sequence -/

/-- The event with which an open region closes. -/
def OpenRegion.exit (o : OpenRegion) (stop : Nat) (closure : Closure) : Event :=
  .exit o.mode o.scope ⟨o.start, stop⟩ closure

namespace Scan
namespace State

/-- All open regions close, the innermost first. -/
theorem popAll_events {s : State} {n stop : Nat} {closure : Closure} (hn : s.below.length = n) :
    (s.popAll stop closure n).log.events =
      (s.opened.map (·.exit stop closure)).reverse ++ s.log.events := by
  induction n generalizing s with
  | zero =>
    rw [opened_eq_nil (List.eq_nil_of_length_eq_zero hn)]
    rfl
  | succ n ih =>
    obtain ⟨hb, -⟩ | ⟨frame, below, hb, hp⟩ := s.pop_cases stop closure
    · rw [hb] at hn
      cases hn
    · have hbelow : (s.pop stop closure).below.length = n := by
        rw [pop_below, List.length_tail, hn, Nat.add_sub_cancel]
      rw [popAll, ih hbelow, hp, opened_cons hb, List.map_cons, List.reverse_cons,
        List.append_assoc]
      rfl

variable {g : Grammar} {t : Text} {s : State}

/-- A scan that recovers closes all regions, and writes the rest of the text as it is. -/
theorem recover_events {i : Nat} (hi : i < t.size) :
    (s.recover g t i).log.events = .token ⟨⟨i, t.size⟩, none, .text⟩ ::
      ((s.opened.map (·.exit i .illegal)).reverse ++ (s.flushTo g t i).log.events) := by
  have hopened : (s.flushTo g t i).opened = s.opened := by
    rw [opened, flushTo_frames, opened]
  have hempty : Span.isEmpty ⟨i, t.size⟩ = false := beq_false_of_ne (Nat.ne_of_lt hi)
  have hevents : ((s.flushTo g t i).popAll i .illegal s.below.length).log.events = _ :=
    popAll_events (congrArg List.length (flushTo_below g t i s))
  rw [hopened] at hevents
  rw [recover]
  dsimp only
  rw [Log.raw, hempty, if_neg Bool.false_ne_true, Log.event]
  exact congrArg _ hevents

end State

/-- An illegal sequence is not empty. -/
theorem nextStep_illegal_lt {g : Grammar} {t : Text} {s s' : State} {i : Nat} (hg : g.Numbered)
    (h : Reachable g t s) (hnext : nextStep g t s = (.illegal i, s')) : i < t.size := by
  have hstep := nextStep_eq_arbitrate hg h
  rw [hnext, arbitrate, ← choose_eq] at hstep
  obtain ⟨hmem, -⟩ := List.min?_eq_some_iff.mp (choose_eq_illegal hstep.symm)
  obtain ⟨m?, -, hfound⟩ := List.mem_filterMap.mp hmem
  obtain ⟨span, hspan, rfl⟩ := Option.map_eq_some_iff.mp hfound
  obtain ⟨m, -, hm⟩ := Option.bind_eq_some_iff.mp hspan
  exact Nat.lt_of_lt_of_le (Matcher.start_lt_stop_of_find? hm) (Matcher.find?_bounds hm).2.2

end Scan

open Scan

variable {g : Grammar} {source : String}

/-- A scan has recovered at the offset `o`. It is the offset of a character; all regions close there
that are open, no region has closed before because of an illegal sequence, and the rest of the text
is one token. -/
structure RecoveredAt (source : String) (o : Nat) (r : Tokenization) : Prop where
  illegal : r.illegal = some o
  lt : o < source.utf8ByteSize
  isValid : (String.Pos.Raw.mk o).IsValid source
  events : ∃ es os, r.events = es ++ os.map (·.exit o .illegal) ++
      [.token ⟨⟨o, source.utf8ByteSize⟩, none, .text⟩] ∧
    CoversOpen os o es ∧ ∀ c ∈ closings es, c.closure ≠ .illegal

theorem recoveredAt (hg : g.Numbered) {s s₁ : State} {i : Nat}
    (hs : Reachable g (.ofString source) s)
    (hnext : nextStep g (.ofString source) s = (.illegal i, s₁)) :
    RecoveredAt source ((Text.ofString source).offset i)
      ((s₁.recover g (.ofString source) i).result (.ofString source) (some i)) := by
  have hvalid := Text.isValid_offset source i
  have hlt := nextStep_illegal_lt hg hs hnext
  have hpos := (nextStep_illegal_within (reachable_recalls hs) hnext).1
  have haligned := State.nextStep_aligned (g := g) (State.reachable_aligned hs)
  have hlegal := State.nextStep_legal (g := g) (t := .ofString source)
    (State.reachable_legal hs)
  rw [hnext] at haligned hlegal
  generalize ht : Text.ofString source = t at *
  have hoffset (j : Nat) (hj : j ≤ t.size) : t.offsets.getD j 0 = t.offset j :=
    Text.offsets_getD t hj
  have hsize : t.offset t.size = source.utf8ByteSize := by
    rw [← ht]
    exact Text.offset_size source
  -- what has been written up to the illegal sequence, at byte offsets
  have hwritten : Written s₁.opened i (s₁.flushTo g t i).log.events := by
    have hto := haligned.toCoveredTo.mono hpos
    have hcovered := State.flushTo_covered (g := g) (t := t) (i := i) hto.covered
    rwa [State.Covered, State.flushTo_flushed_eq g t hto.flushed, State.opened,
      State.flushTo_frames] at hcovered
  have hmap := hwritten.map (f := fun j => t.offsets.getD j 0) (hoffset 0 (Nat.zero_le _))
    (fun j k hjk hk => by
      rw [hoffset j (by omega), hoffset k hk]
      exact t.offset_lt_offset hjk hk) (Nat.le_of_lt hlt)
  rw [hoffset i (Nat.le_of_lt hlt)] at hmap
  have hexits : (s₁.opened.map (·.exit i .illegal)).map
        (·.mapOffsets fun j => t.offsets.getD j 0) =
      (s₁.opened.map fun o => { o with start := t.offsets.getD o.start 0 }).map
        (·.exit (t.offset i) .illegal) := by
    rw [List.map_map, List.map_map, ← hoffset i (Nat.le_of_lt hlt)]
    rfl
  have hrest : (Event.token ⟨⟨i, t.size⟩, none, .text⟩).mapOffsets (fun j => t.offsets.getD j 0) =
      .token ⟨⟨t.offset i, source.utf8ByteSize⟩, none, .text⟩ := by
    rw [← hsize, ← hoffset i (Nat.le_of_lt hlt), ← hoffset t.size (Nat.le_refl _)]
    rfl
  have hoff : t.offset i < source.utf8ByteSize := hsize ▸ t.offset_lt_offset hlt (Nat.le_refl _)
  refine ⟨congrArg some (hoffset i (Nat.le_of_lt hlt)), hoff, hvalid, _, _, ?_, hmap.coversOpen, ?_⟩
  · rw [State.result]
    dsimp only
    rw [State.recover_events hlt, List.map_cons, List.reverse_cons, List.map_append,
      List.reverse_append, List.map_reverse, List.reverse_reverse, hexits, hrest]
  · have hflushed := State.flushTo_legal (g := g) (t := t) i hlegal
    rw [closings_reverse, closings_map]
    intro c hc
    obtain ⟨c', hc', rfl⟩ := List.mem_map.mp (List.mem_reverse.mp hc)
    exact hflushed c' hc'

/-- The two scans fail or end in the same way, or one fails where the other recovers. -/
theorem tokenize_cases (hg : g.Numbered) (source : String) :
    (∃ r : Tokenization, r.illegal = none ∧ ∀ policy, g.tokenize policy source = .ok r) ∨
      (∃ e, ∀ policy, g.tokenize policy source = .error (.malformed g.name e)) ∨
      ∃ o r, RecoveredAt source o r ∧
        g.tokenize .abort source = .error (.illegalSequence g.name o) ∧
        g.tokenize .plainRemainder source = .ok r := by
  obtain ⟨steps, s, htrace, hends⟩ : ∃ steps s, Trace g (.ofString source) steps s ∧
      Ends g (.ofString source) .abort s (g.tokenize .abort source) := (tokenize_eq_iff hg).mp rfl
  generalize hr : g.tokenize .abort source = r at hends
  cases hends with
  | done hnext =>
    exact .inl ⟨_, rfl, fun policy => (tokenize_eq_iff hg).mpr ⟨steps, s, htrace, .done hnext⟩⟩
  | recovered _ hpolicy => cases hpolicy
  | @aborted s₁ i hnext _ =>
    have hi := (nextStep_illegal_within (reachable_recalls htrace.reachable) hnext).2
    refine .inr (.inr ⟨_, _, recoveredAt hg htrace.reachable hnext, ?_, ?_⟩)
    · rw [Text.offsets_getD _ hi]
    · exact (tokenize_eq_iff hg).mpr ⟨steps, s, htrace, .recovered hnext rfl⟩
  | @failed s₁ id index span e hnext hbegin =>
    refine .inr (.inl ⟨e, fun policy => ?_⟩)
    exact (tokenize_eq_iff hg).mpr ⟨steps, s, htrace, .failed hnext hbegin⟩

/-- What a scan that aborts returns and what a scan that recovers does determine each other. They
are the same unless there is an illegal sequence; then one fails with the offset at which the other
recovers. -/
theorem illegal_policies_agree {d : GrammarDef} {g : Grammar} {source : String}
    (hd : Grammar.compile d = .ok g) :
    (∀ r, g.tokenize .abort source = .ok r ↔
      g.tokenize .plainRemainder source = .ok r ∧ r.illegal = none) ∧
    (∀ name o, g.tokenize .abort source = .error (.illegalSequence name o) ↔
      name = g.name ∧ ∃ r, g.tokenize .plainRemainder source = .ok r ∧ r.illegal = some o) ∧
    (∀ r o, g.tokenize .plainRemainder source = .ok r → r.illegal = some o →
      RecoveredAt source o r) ∧
    ∀ e, g.tokenize .plainRemainder source = .error e ↔
      g.tokenize .abort source = .error e ∧ ∀ name o, e ≠ .illegalSequence name o := by
  have hg := Grammar.compile_numbered hd
  obtain ⟨r, hlegal, hr⟩ | ⟨e, he⟩ | ⟨o, r, hrecovered, habort, hplain⟩ := tokenize_cases hg source
  · rw [hr, hr]
    refine ⟨fun r' => ?_, fun name o => ⟨nofun, ?_⟩, fun r' o hr' ho => ?_,
      fun e => ⟨nofun, fun h => by cases h.1⟩⟩
    · refine ⟨fun h => ?_, fun h => h.1⟩
      obtain rfl := Except.ok.inj h
      exact ⟨h, hlegal⟩
    · rintro ⟨-, r', hr', ho⟩
      obtain rfl := Except.ok.inj hr'
      rw [hlegal] at ho
      cases ho
    · obtain rfl := Except.ok.inj hr'
      rw [hlegal] at ho
      cases ho
  · rw [he, he]
    refine ⟨fun r => ⟨nofun, fun h => by cases h.1⟩, fun name o => ⟨nofun, ?_⟩, nofun, fun e' => ?_⟩
    · rintro ⟨-, r, hr, -⟩
      cases hr
    · refine ⟨fun h => ⟨h, ?_⟩, fun h => h.1⟩
      obtain rfl := Except.error.inj h
      exact nofun
  · rw [habort, hplain]
    refine ⟨fun r' => ⟨nofun, ?_⟩, fun name o' => ⟨fun h => ?_, ?_⟩, fun r' o' hr' ho' => ?_,
      fun e => ⟨nofun, ?_⟩⟩
    · rintro ⟨hr', hlegal⟩
      obtain rfl := Except.ok.inj hr'
      rw [hrecovered.illegal] at hlegal
      cases hlegal
    · obtain ⟨rfl, rfl⟩ := Error.illegalSequence.inj (Except.error.inj h)
      exact ⟨rfl, r, rfl, hrecovered.illegal⟩
    · rintro ⟨rfl, r', hr', ho'⟩
      obtain rfl := Except.ok.inj hr'
      obtain rfl := Option.some.inj (hrecovered.illegal.symm.trans ho')
      rfl
    · obtain rfl := Except.ok.inj hr'
      obtain rfl := Option.some.inj (hrecovered.illegal.symm.trans ho')
      exact hrecovered
    · rintro ⟨h, hother⟩
      exact absurd (Except.error.inj h).symm (hother _ _)

/-- Parentheses that nest, in a text without square brackets. -/
def roundParenthesesDef : GrammarDef := { parenthesesDef with illegal := some (.source "\\]") }

theorem compile_roundParenthesesDef :
    (Grammar.compile roundParenthesesDef).toOption.isSome = true := by
  decide +kernel

def roundParentheses : Grammar :=
  (Grammar.compile roundParenthesesDef).toOption.get compile_roundParenthesesDef

theorem compile_eq_roundParentheses :
    Grammar.compile roundParenthesesDef = .ok roundParentheses :=
  eq_ok_of_toOption_eq_some (Option.some_get compile_roundParenthesesDef).symm

theorem illegal_policies_agree_roundParentheses :
    Grammar.compile roundParenthesesDef = .ok roundParentheses ∧
      roundParentheses.tokenize .abort "(x]y" = .error (.illegalSequence roundParentheses.name 2) ∧
      ∃ r, roundParentheses.tokenize .plainRemainder "(x]y" = .ok r ∧ RecoveredAt "(x]y" 2 r := by
  have hplain : (roundParentheses.tokenize .plainRemainder "(x]y").toOption.map (·.illegal) =
      some (some 2) := by
    decide +kernel
  obtain ⟨r, hr, hillegal⟩ := exists_ok hplain
  obtain ⟨-, habort, hrecovered, -⟩ :=
    @illegal_policies_agree roundParenthesesDef roundParentheses "(x]y" compile_eq_roundParentheses
  exact ⟨compile_eq_roundParentheses, (habort _ 2).mpr ⟨rfl, r, hr, hillegal⟩, r, hr,
    hrecovered r 2 hr hillegal⟩

end Tinct
