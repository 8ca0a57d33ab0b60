import Tinct.Proofs.Grammar.Arena
import Tinct.Proofs.Scan.Recall
import Tinct.Proofs.Text.Offsets
import Tinct.Proofs.Token.Tiling

/-!
# A scan covers its text

What a scan has written covers the text up to where the text that waits begins (`State.Covered`).
Text waits up to the position of the scan at most (`State.Aligned`), and closing all regions at the
end leaves nothing out:

* `Log.text_induction`: text is written as tokens of its scope and as keywords;
* `reachable_aligned`: every state that a scan comes to is aligned;
* `tokenize_written`: the events of a tokenization are events that a scan has written up to the end
  of the text with no region open, at their byte offsets;
* `tokenize_tiles`: the leaf tokens of a tokenization tile the text;
* `tokenize_nests`: its regions nest, and each of them is tiled by the tokens between its events.
-/

namespace Tinct.Scan

/-! ## Writing tokens -/

namespace Log

/-- A token is added, or it is empty, or it is text that joins the text in front of it. -/
theorem token_cases (l : Log) (tok : Token) :
    tok.span.isEmpty = true ∧ l.token tok = l ∨
      tok.span.isEmpty = false ∧ l.token tok = l.event (.token tok) ∨
      ∃ last rest, l.events = .token last :: rest ∧ last.kind = .text ∧ tok.kind = .text ∧
        last.scope = tok.scope ∧ l.token tok =
          { l with events := .token { last with span := ⟨last.span.start, tok.span.stop⟩ } ::
              rest } := by
  unfold token
  split
  · exact .inl ⟨‹_›, rfl⟩
  · rename_i hempty
    have hempty := Bool.eq_false_iff.mpr hempty
    split
    · split
      · rename_i last rest hevents h
        exact .inr (.inr ⟨last, rest, hevents, h.1, h.2.1, h.2.2.1, rfl⟩)
      · exact .inr (.inl ⟨hempty, rfl⟩)
    · exact .inr (.inl ⟨hempty, rfl⟩)

/-- A token that is no plain text does not join what is in front of it. -/
theorem token_of_kind_ne {tok : Token} (h : tok.kind ≠ .text) (l : Log) :
    l.token tok = if tok.span.isEmpty then l else l.event (.token tok) := by
  obtain ⟨hempty, ht⟩ | ⟨hempty, ht⟩ | ⟨_, _, -, -, hkind, -⟩ := l.token_cases tok
  · rw [ht, if_pos hempty]
  · rw [ht, if_neg (Bool.eq_false_iff.mp hempty)]
  · exact absurd hkind h

theorem keywords_induction {P : Log → Prop} {table : KeywordTable} {scope : Option Scope} {t : Text}
    {start stop i : Nat} {hits : List Span} {l : Log} (h : P l)
    (htext : ∀ l span, P l → P (l.token ⟨span, scope, .text⟩))
    (hkeyword : ∀ l span k, P l → span.isEmpty = false → table.lookup (t.extract span) = some k →
      P ((l.event (.token ⟨span, some k.category, .keyword⟩)).score k.weight)) :
    P (keywords table scope t start stop i hits l) := by
  induction hits generalizing i l with
  | nil => exact htext l _ h
  | cons hit hits ih =>
    rw [keywords]
    dsimp only
    split
    · exact ih h
    · rename_i k hk
      refine ih ?_
      split at hk
      · cases hk
      · rename_i hempty
        have hempty' : (⟨start + hit.start, start + hit.stop⟩ : Span).isEmpty = false := by
          refine Bool.eq_false_iff.mpr fun heq => hempty (beq_iff_eq.mpr ?_)
          exact Nat.add_left_cancel (eq_of_beq heq)
        rw [token_of_kind_ne (by simp), if_neg (Bool.eq_false_iff.mp hempty')]
        exact hkeyword _ _ k (htext l _ h) hempty' hk

/-- Text is written as plain text in its scope and as keywords of the table in force. -/
theorem text_induction {P : Log → Prop} {g : Grammar} {m : Mode} {scope : Option Scope} {t : Text}
    {l : Log} (h : P l) (span : Span)
    (htext : ∀ l span, P l → P (l.token ⟨span, scope, .text⟩))
    (hkeyword : ∀ l span k, P l → span.isEmpty = false →
      (g.effectiveKeywords m).1.lookup (t.extract span) = some k →
        P ((l.event (.token ⟨span, some k.category, .keyword⟩)).score k.weight)) :
    P (l.text g m scope t span) := by
  unfold text
  split
  · exact h
  · exact keywords_induction h htext hkeyword

end Log

/-! ## What is written between two moves -/

namespace Log
variable {os : List OpenRegion} {i : Nat} {l : Log}

/-- A token is written where the events so far end, unless it is empty. Joined to the text in front
of it, it ends at the same position. -/
theorem token_written (tok : Token) (h : Written os i l.events) (hi : tok.span.start = i)
    (hle : i ≤ tok.span.stop) : Written os tok.span.stop (l.token tok).events := by
  unfold token
  split
  · rename_i hempty
    rwa [← eq_of_beq hempty, hi]
  · rename_i hempty
    have hlt : i < tok.span.stop := by
      refine Nat.lt_of_le_of_ne hle fun heq => hempty ?_
      exact beq_iff_eq.mpr (hi.trans heq)
    split
    · rename_i last rest hevents
      split
      · rw [hevents] at h
        cases h with
        | token hrest hlast hlt' =>
          exact .token (t := { last with span := ⟨last.span.start, tok.span.stop⟩ }) hrest hlast
            (Nat.lt_trans hlt' hlt)
      · exact .token h hi hlt
    · exact .token h hi hlt

theorem raw_written (span : Span) (h : Written os i l.events) (hi : span.start = i)
    (hle : i ≤ span.stop) : Written os span.stop (l.raw span).events := by
  unfold raw
  split
  · rename_i hempty
    rwa [← eq_of_beq hempty, hi]
  · rename_i hempty
    refine .token (t := ⟨span, none, .text⟩) h hi (Nat.lt_of_le_of_ne hle fun heq => hempty ?_)
    exact beq_iff_eq.mpr (hi.trans heq)

theorem delimiter_written {span : Span} {scope : Scope} (h : Written os i l.events)
    (hi : span.start = i) (hle : i ≤ span.stop) :
    Written os span.stop (l.delimiter span scope).events :=
  token_written ⟨span, some scope, .delimiter⟩ h hi hle

theorem scoreMode_events (l : Log) (m : Mode) : (l.scoreMode m).events = l.events := by
  unfold scoreMode
  split <;> rfl

/-- Hits in the order of the text divide it without a rest, keywords or not. -/
theorem keywords_written {table : KeywordTable} {scope : Option Scope} {t : Text}
    {start stop n : Nat} {hits : List Span} (h : Written os i l.events) (hstart : start ≤ i)
    (hi : i ≤ stop) (hhits : Regex.Ordered (i - start) n hits) (hn : start + n ≤ stop) :
    Written os stop (keywords table scope t start stop i hits l).events := by
  induction hits generalizing i l with
  | nil => exact token_written ⟨⟨i, stop⟩, scope, .text⟩ h rfl hi
  | cons hit hits ih =>
    obtain ⟨⟨h1, h2, h3⟩, hrest⟩ := hhits
    rw [keywords]
    dsimp only
    split
    · exact ih h hstart hi (hrest.mono (by omega))
    · rename_i k _
      have htext : Written os (start + hit.start)
          (l.token ⟨⟨i, start + hit.start⟩, scope, .text⟩).events :=
        token_written ⟨⟨i, start + hit.start⟩, scope, .text⟩ h rfl
          (show i ≤ start + hit.start by omega)
      have hword := token_written ⟨⟨start + hit.start, start + hit.stop⟩, some k.category, .keyword⟩
        htext rfl (show start + hit.start ≤ start + hit.stop by omega)
      refine ih hword (Nat.le_add_right _ _) (show start + hit.stop ≤ stop by omega) ?_
      rwa [Nat.add_sub_cancel_left]

theorem text_written {g : Grammar} {m : Mode} {scope : Option Scope} {t : Text} {stop : Nat}
    (h : Written os i l.events) (hle : i ≤ stop) :
    Written os stop (l.text g m scope t ⟨i, stop⟩).events := by
  unfold text
  split
  · rename_i hempty
    rwa [← show i = stop from eq_of_beq hempty]
  · generalize hk : g.effectiveKeywords m = k
    obtain ⟨table, identifier⟩ := k
    dsimp only
    split
    · exact keywords_written (n := 0) h (Nat.le_refl _) hle trivial hle
    · refine keywords_written (n := (t.chars.extract i stop).size) h (Nat.le_refl _) hle ?_ ?_
      · rw [Nat.sub_self]
        exact Regex.findAll_ordered identifier ⟨t.chars.extract i stop⟩
      · rw [Array.size_extract]
        omega

end Log

/-! ## What the moves keep -/

namespace State

/-- The open regions as their enters have been written. The text around them all has none. -/
def opened (s : State) : List OpenRegion :=
  s.frames.dropLast.map fun f => ⟨f.mode.id, f.mode.scope, f.start⟩

/-- What has been written covers the text up to where the text that waits begins. -/
def Covered (s : State) : Prop := Written s.opened s.flushed s.log.events

/-- A covered state in which text waits up to the position `i` at most. -/
structure CoveredTo (i : Nat) (s : State) : Prop where
  covered : s.Covered
  flushed : s.flushed ≤ i

/-- The text that waits ends at the position of the scan at the latest, which is a position of the
text. -/
structure Aligned (t : Text) (s : State) : Prop extends s.CoveredTo s.position where
  position : s.position ≤ t.size

theorem opened_eq_nil {s : State} (h : s.below = []) : s.opened = [] := by
  rw [opened, frames, h]
  rfl

theorem opened_cons {s : State} {frame : Frame} {below : List Frame}
    (h : s.below = frame :: below) :
    s.opened = ⟨s.top.mode.id, s.top.mode.scope, s.top.start⟩ ::
      (frame :: below).dropLast.map fun f => ⟨f.mode.id, f.mode.scope, f.start⟩ := by
  rw [opened, frames, h, List.dropLast_cons_cons, List.map_cons]

variable {g : Grammar} {t : Text} {i : Nat} {s : State}

theorem flushTo_covered (h : s.Covered) : (s.flushTo g t i).Covered := by
  unfold flushTo
  split
  · exact h
  · rename_i hi
    exact Log.text_written h (Nat.le_of_not_le hi)

/-- A region closes where the text that waits begins. -/
theorem pop_covered (closure : Closure) (h : s.Covered) :
    (s.pop s.flushed closure).Covered := by
  obtain ⟨-, hp⟩ | ⟨frame, below, hb, hp⟩ := s.pop_cases s.flushed closure
  · rwa [hp]
  · rw [hp]
    unfold Covered at h
    rw [opened_cons hb] at h
    exact .exit h closure

/-- A region opens where the text that waits begins. -/
theorem push_covered (m : Mode) (finish : Option Matcher) (h : s.Covered) :
    (s.push m finish s.flushed).Covered := by
  unfold Covered
  rw [opened_cons (push_below m finish s.flushed s)]
  exact .enter h m.id m.scope

/-- A delimiter stands where the text that waits begins. -/
theorem delimiter_covered {span : Span} (scope : Scope) (h : s.Covered)
    (hstart : span.start = s.flushed) (hle : span.start ≤ span.stop) :
    Covered { s with log := s.log.delimiter span scope, flushed := span.stop } :=
  Log.delimiter_written h hstart (hstart ▸ hle)

/-- A region closes at a position that the text waiting does not lie behind. -/
theorem pop_flushTo_coveredTo (closure : Closure) (h : s.CoveredTo i) :
    ((s.flushTo g t i).pop i closure).CoveredTo i := by
  have hflushed := flushTo_flushed_eq g t h.flushed
  have hcovered := pop_covered closure (flushTo_covered (g := g) (t := t) (i := i) h.covered)
  rw [hflushed] at hcovered
  exact ⟨hcovered, Nat.le_of_eq (by rw [pop_flushed, hflushed])⟩

theorem cascade_aligned {n : Nat} {closed : Mode} (h : s.Aligned t) :
    (s.cascade g t n closed).Aligned t := by
  refine cascade_induction g t (P := Aligned t) h fun s hs => ?_
  have hpop := pop_flushTo_coveredTo (g := g) (t := t) .byChild hs.toCoveredTo
  have hpos : ((s.flushTo g t s.position).pop s.position .byChild).position = s.position := by
    rw [pop_position, flushTo_position]
  exact ⟨by rwa [hpos], by rw [hpos]; exact hs.position⟩

theorem closeInner_coveredTo {levels : Nat} (h : s.CoveredTo i) :
    (s.closeInner g t i levels).CoveredTo i :=
  closeInner_induction g t (P := CoveredTo i) h fun _ hs => pop_flushTo_coveredTo .withParent hs

theorem CoveredTo.mono {j : Nat} (h : s.CoveredTo i) (hij : i ≤ j) : s.CoveredTo j :=
  ⟨h.covered, Nat.le_trans h.flushed hij⟩

/-! ## Begins and ends -/

theorem covered_with_flushed (h : s.Covered) (hi : s.flushed = i) :
    Covered { s with flushed := i } :=
  hi ▸ h

/-- A region may close behind where the text that waits begins, if a lexeme fills the gap. -/
theorem pop_covered_with_flushed (closure : Closure) (h : Covered { s with flushed := i }) :
    Covered { s.pop i closure with flushed := i } := by
  have hpop := pop_covered closure h
  obtain ⟨top, below, position, flushed, log, grammarIllegal, emptyBegins⟩ := s
  cases below <;> exact hpop

/-- However its lexemes stand to a region, the region opens at the end of what has been written, and
no text waits behind the begin lexeme. -/
theorem enter_coveredTo (m : Mode) (finish : Option Matcher) {span : Span}
    (h : s.CoveredTo span.start) (hle : span.start ≤ span.stop) :
    (s.enter g t m finish span).CoveredTo span.stop := by
  have hcovered (i : Nat) : (s.flushTo g t i).Covered := flushTo_covered h.covered
  have hstart := flushTo_flushed_eq g t h.flushed
  have hstop := flushTo_flushed_eq g t (h.mono hle).flushed
  unfold enter
  dsimp only
  split
  · rename_i scope _
    refine ⟨?_, Nat.le_refl span.stop⟩
    split
    · exact push_covered m finish (delimiter_covered scope (hcovered _) hstart.symm hle)
    · have hpush := push_covered m finish (hcovered span.start)
      rw [hstart] at hpush
      exact delimiter_covered scope hpush hstart.symm hle
  · split
    · have hpush := push_covered m finish (hcovered span.stop)
      rw [hstop] at hpush
      exact ⟨covered_with_flushed hpush hstop, Nat.le_refl span.stop⟩
    · have hpush := push_covered m finish (hcovered span.start)
      rw [hstart] at hpush
      exact ⟨covered_with_flushed hpush hstart, hle⟩

/-- Wherever its end lexeme belongs, a region closes at the end of what has been written. -/
theorem closeEnded_aligned {span : Span} (h : s.CoveredTo span.start)
    (hle : span.start ≤ span.stop) (hstop : span.stop ≤ t.size) :
    (s.closeEnded g t span).Aligned t := by
  have hpop := pop_flushTo_coveredTo (g := g) (t := t) .matched h
  have hflushed : ((s.flushTo g t span.start).pop span.start .matched).flushed = span.start := by
    rw [pop_flushed, flushTo_flushed_eq g t h.flushed]
  unfold closeEnded
  dsimp only
  split
  · exact ⟨⟨hpop.covered, hpop.flushed⟩, Nat.le_trans hle hstop⟩
  split
  · split
    · exact ⟨⟨delimiter_covered _ hpop.covered hflushed.symm hle, Nat.le_refl _⟩, hstop⟩
    · have hcovered := covered_with_flushed hpop.covered hflushed
      exact ⟨⟨hcovered, hle⟩, hstop⟩
  · split
    · rename_i scope _
      have hdelimiter := delimiter_covered scope (flushTo_covered (g := g) (t := t) h.covered)
        (flushTo_flushed_eq g t h.flushed).symm hle
      exact ⟨⟨pop_covered_with_flushed .matched hdelimiter, Nat.le_refl _⟩, hstop⟩
    · have hpop := pop_flushTo_coveredTo (g := g) (t := t) .matched (h.mono hle)
      exact ⟨⟨hpop.covered, hpop.flushed⟩, hstop⟩

theorem begin_aligned {s' : State} {id index : Nat} {span : Span} (h : s.Aligned t)
    (hspan : span.Within s.position t.size) (hbegin : s.begin g t id index span = .ok s') :
    s'.Aligned t := by
  obtain ⟨-, rfl⟩ | ⟨v, finish, -, -, hs'⟩ := begin_cases hbegin
  · exact h
  obtain ⟨hpos, hle, hstop⟩ := hspan
  have hnote : (s.noteBegin g id span).CoveredTo span.start := by
    have hto := h.toCoveredTo.mono hpos
    unfold noteBegin
    dsimp only
    split <;> exact ⟨by rw [Covered, Log.scoreMode_events]; exact hto.covered, hto.flushed⟩
  have hopen : (s.opening g t id finish span).Aligned t := by
    have henter := enter_coveredTo (g := g) (t := t) (g.mode id) finish hnote hle
    exact ⟨⟨henter.covered, henter.flushed⟩, hstop⟩
  obtain rfl | rfl := hs'
  · refine cascade_aligned ?_
    have hpop := pop_flushTo_coveredTo (g := g) (t := t) .matched hopen.toCoveredTo
    have hpos : (((s.opening g t id finish span).flushTo g t span.stop).pop span.stop
        .matched).position = span.stop := by
      rw [pop_position, flushTo_position]
      rfl
    exact ⟨by rw [hpos]; exact hpop, by rw [hpos]; exact hstop⟩
  · exact hopen

theorem finish_aligned {level : Nat} {span : Span} (h : s.Aligned t)
    (hspan : span.Within s.position t.size) : (s.finish g t level span).Aligned t := by
  obtain ⟨hpos, hle, hstop⟩ := hspan
  rw [finish_eq]
  exact cascade_aligned
    (closeEnded_aligned (closeInner_coveredTo (h.toCoveredTo.mono hpos)) hle hstop)

/-! ## All states that a scan comes to -/

theorem initial_aligned (g : Grammar) (t : Text) : (initial g).Aligned t :=
  ⟨⟨.nil, Nat.le_refl 0⟩, Nat.zero_le _⟩

theorem forget_opened (s : State) : s.forget.opened = s.opened := by
  rw [opened, forget_frames, ← List.map_dropLast, List.map_map]
  rfl

theorem forget_aligned : s.forget.Aligned t ↔ s.Aligned t := by
  have hcovered : s.forget.Covered ↔ s.Covered := by
    unfold Covered
    rw [forget_opened]
    exact Iff.rfl
  exact ⟨fun h => ⟨⟨hcovered.mp h.covered, h.flushed⟩, h.position⟩,
    fun h => ⟨⟨hcovered.mpr h.covered, h.flushed⟩, h.position⟩⟩

theorem nextStep_aligned (h : s.Aligned t) : (nextStep g t s).2.Aligned t := by
  rw [← forget_aligned, nextStep_forget, forget_aligned]
  exact h

theorem reachable_aligned (h : Reachable g t s) : s.Aligned t := by
  induction h with
  | refl => exact initial_aligned g t
  | tail hreach hstep ih =>
    have hrecalls := reachable_recalls hreach
    have hnext := nextStep_aligned (g := g) ih
    cases hstep with
    | begin hs hbegin =>
      have hspan := nextStep_begin_within hrecalls hs
      rw [hs] at hnext
      exact begin_aligned hnext hspan hbegin
    | finish hs =>
      have hspan := nextStep_finish_within hrecalls hs
      rw [hs] at hnext
      exact finish_aligned hnext hspan

/-! ## What a scan concludes with -/

theorem popAll_covered (closure : Closure) (n : Nat) (h : s.Covered) :
    (s.popAll s.flushed closure n).Covered ∧
      (s.popAll s.flushed closure n).flushed = s.flushed :=
  popAll_induction (P := fun s' => s'.Covered ∧ s'.flushed = s.flushed) ⟨h, rfl⟩ fun s' hs => by
    have hpop := pop_covered closure hs.1
    rw [hs.2] at hpop
    exact ⟨hpop, by rw [pop_flushed, hs.2]⟩

/-- All regions close behind the text that waits, and nothing is left open. -/
theorem popAll_written (closure : Closure) (h : s.CoveredTo i) :
    Written [] i ((s.flushTo g t i).popAll i closure s.below.length).log.events := by
  have hall := popAll_covered closure s.below.length
    (flushTo_covered (g := g) (t := t) (i := i) h.covered)
  rw [flushTo_flushed_eq g t h.flushed] at hall
  obtain ⟨hcovered, hflushed⟩ := hall
  have hbelow : ((s.flushTo g t i).popAll i closure s.below.length).below = [] := by
    rw [popAll_below, flushTo_below, List.drop_length]
  unfold Covered at hcovered
  rwa [opened_eq_nil hbelow, hflushed] at hcovered

theorem finishInput_written (h : s.Aligned t) :
    Written [] t.size (s.finishInput g t).log.events := by
  rw [finishInput]
  exact popAll_written .endOfInput (h.toCoveredTo.mono h.position)

theorem recover_written (h : s.CoveredTo i) (hi : i ≤ t.size) :
    Written [] t.size (s.recover g t i).log.events := by
  have hwritten := popAll_written (g := g) (t := t) .illegal h
  rw [recover]
  exact Log.raw_written ⟨i, t.size⟩ hwritten rfl hi

end State

/-- Whatever a state concludes with has been written up to the end of the text. -/
theorem Concludes.written {g : Grammar} {t : Text} {policy : IllegalPolicy} {s : State}
    {r : Tokenization} (h : Concludes g t policy s r) (hs : Reachable g t s) :
    ∃ es, Written [] t.size es ∧
      r.events = (es.map (·.mapOffsets fun i => t.offsets.getD i 0)).reverse := by
  have haligned := State.reachable_aligned hs
  have hnext := State.nextStep_aligned (g := g) haligned
  cases h with
  | done hdone => rw [hdone] at hnext; exact ⟨_, State.finishInput_written hnext, rfl⟩
  | illegal hillegal =>
    obtain ⟨hpos, hi⟩ := nextStep_illegal_within (reachable_recalls hs) hillegal
    rw [hillegal] at hnext
    exact ⟨_, State.recover_written (hnext.toCoveredTo.mono hpos) hi, rfl⟩
  | exhausted => exact ⟨_, State.finishInput_written haligned, rfl⟩

end Tinct.Scan

namespace Tinct

open Scan

variable {g : Grammar} {policy : IllegalPolicy} {source : String} {r : Tokenization}

/-- The events of a tokenization have been written up to the end of the text, with no region left
open; they are reported first to last and at their byte offsets. -/
theorem tokenize_written (h : g.tokenize policy source = .ok r) :
    ∃ es, Written [] (Text.ofString source).size es ∧
      r.events =
        (es.map (·.mapOffsets fun i => (Text.ofString source).offsets.getD i 0)).reverse := by
  obtain ⟨s, hs, hr⟩ := exists_concludes_of_scan_eq_ok h
  exact hr.written hs

theorem tokenize_covers (h : g.tokenize policy source = .ok r) :
    Covers 0 source.utf8ByteSize r.events := by
  obtain ⟨es, hes, hevents⟩ := tokenize_written h
  have hoffset : ∀ i, i ≤ (Text.ofString source).size →
      (Text.ofString source).offsets.getD i 0 = (Text.ofString source).offset i :=
    fun i hi => Text.offsets_getD _ hi
  have hmap := hes.map (f := fun i => (Text.ofString source).offsets.getD i 0)
    (hoffset 0 (Nat.zero_le _))
    (fun i j hij hj => by
      rw [hoffset i (by omega), hoffset j hj]
      exact Text.offset_lt_offset _ hij hj)
    (Nat.le_refl _)
  rw [hoffset _ (Nat.le_refl _), Text.offset_size] at hmap
  rw [hevents]
  exact hmap.covers

/-- The tokens of a tokenization are those of a tiling of the text, at their byte offsets. -/
theorem tokenize_tokens (h : g.tokenize policy source = .ok r) :
    ∃ ts, Tiles 0 (Text.ofString source).size ts ∧
      r.tokens = ts.map fun t => { t with span := t.span.map (Text.ofString source).offset } := by
  obtain ⟨es, hes, hevents⟩ := tokenize_written h
  have htiles := hes.covers.tiles
  refine ⟨_, htiles, ?_⟩
  rw [Tokenization.tokens_eq, hevents, ← List.map_reverse, leaves_map]
  refine List.map_congr_left fun t ht => ?_
  obtain ⟨-, hlt, hle⟩ := htiles.within t ht
  rw [Span.map, Text.offsets_getD _ (by omega), Text.offsets_getD _ hle]
  rfl

/-- The texts of the tokens make up the text. -/
theorem reconstruct_of_tokenize (h : g.tokenize policy source = .ok r) :
    r.reconstruct source = source := by
  obtain ⟨ts, hts, htokens⟩ := tokenize_tokens h
  have htexts : r.tokens.map (·.text source) =
      ts.map fun t => (Text.ofString source).extract t.span := by
    rw [htokens, List.map_map]
    refine List.map_congr_left fun t ht => ?_
    exact slice_offset source (Nat.le_of_lt (hts.within t ht).2.1)
  rw [Tokenization.reconstruct, htexts, hts.join_extract, Text.extract_ofString]

/-- A group and the text in front of it. -/
def groupBehindText : Tokenization where
  events := [.token ⟨⟨0, 2⟩, none, .text⟩, .enter 1 (some ⟨"group"⟩) 2,
    .token ⟨⟨2, 3⟩, some ⟨"open"⟩, .delimiter⟩, .token ⟨⟨3, 5⟩, some ⟨"group"⟩, .text⟩,
    .exit 1 (some ⟨"group"⟩) ⟨2, 5⟩ .matched]
  relevance := 1
  illegal := none

theorem tokenize_parentheses : parentheses.tokenize .abort "é(x)" = .ok groupBehindText :=
  eq_ok_of_toOption_eq_some (by decide +kernel)

/-- The leaf tokens of a tokenization tile the text: the first starts where the text does, each
starts where the one before it ends, none is empty, and the last ends where the text ends. They
start and end between characters, and their texts make up the text. -/
theorem tokenize_tiles (h : g.tokenize policy source = .ok r) :
    Tiles 0 source.utf8ByteSize r.tokens ∧
      (∀ t ∈ r.tokens, (String.Pos.Raw.mk t.span.start).IsValid source ∧
        (String.Pos.Raw.mk t.span.stop).IsValid source) ∧
      (r.tokens = [] ↔ source = "") ∧ r.reconstruct source = source := by
  have htiles : Tiles 0 source.utf8ByteSize r.tokens := (tokenize_covers h).tiles
  obtain ⟨ts, hts, htokens⟩ := tokenize_tokens h
  refine ⟨htiles, ?_, ?_, reconstruct_of_tokenize h⟩
  · rw [htokens]
    intro t ht
    obtain ⟨t', -, rfl⟩ := List.mem_map.mp ht
    exact ⟨Text.isValid_offset source _, Text.isValid_offset source _⟩
  · rw [htiles.eq_nil_iff, eq_comm, String.utf8ByteSize_eq_zero_iff]

theorem tokenize_tiles_parentheses : ∃ r, parentheses.tokenize .abort "é(x)" = .ok r ∧
    Tiles 0 "é(x)".utf8ByteSize r.tokens ∧ r.reconstruct "é(x)" = "é(x)" := by
  obtain ⟨htiles, -, -, htext⟩ := tokenize_tiles tokenize_parentheses
  exact ⟨_, tokenize_parentheses, htiles, htext⟩

/-- The events of a tokenization are balanced, and they stand where their regions do. In front of
every exit stands an enter with the same mode, the same scope and the offset at which the region
starts. The events between the two cover the region, and their tokens tile it. Regions that closed
before the enter lie in front of the region, those between the two events lie inside it, and of any
two regions the one that closes first lies in front of the other or inside it. -/
theorem tokenize_nests (h : g.tokenize policy source = .ok r) :
    Covers 0 source.utf8ByteSize r.events ∧
      (∀ front back mode scope span closure,
        r.events = front ++ .exit mode scope span closure :: back →
          ∃ outer inner, front = outer ++ .enter mode scope span.start :: inner ∧
            span.start ≤ span.stop ∧ Covers span.start span.stop inner ∧
            Tiles span.start span.stop (leaves inner) ∧
            (∀ r ∈ closings outer, r.span.stop ≤ span.start) ∧
            ∀ r ∈ closings inner, span.start ≤ r.span.start ∧ r.span.stop ≤ span.stop) ∧
      r.regions.Pairwise fun a b => a.span.stop ≤ b.span.start ∨
        b.span.start ≤ a.span.start ∧ a.span.stop ≤ b.span.stop := by
  have hcovers := tokenize_covers h
  refine ⟨hcovers, fun front back mode scope span closure hevents => ?_, hcovers.regions_pairwise⟩
  obtain ⟨outer, inner, hfront, hinner, houter⟩ := hcovers.exists_enter hevents
  refine ⟨outer, inner, hfront, hinner.le, hinner, hinner.tiles, houter, fun r hr => ?_⟩
  obtain ⟨h1, -, h3⟩ := hinner.within r hr
  exact ⟨h1, h3⟩

theorem tokenize_nests_parentheses : ∃ r, parentheses.tokenize .abort "é(x)" = .ok r ∧
    Covers 0 "é(x)".utf8ByteSize r.events ∧
    ∃ outer inner, r.events = outer ++ .enter 1 (some ⟨"group"⟩) 2 :: inner ++
        [.exit 1 (some ⟨"group"⟩) ⟨2, 5⟩ .matched] ∧ Tiles 2 5 (leaves inner) := by
  obtain ⟨hcovers, hregions, -⟩ := tokenize_nests tokenize_parentheses
  obtain ⟨outer, inner, hfront, -, -, htiles, -⟩ := hregions [_, _, _, _] [] _ _ _ _ rfl
  refine ⟨_, tokenize_parentheses, hcovers, outer, inner, ?_, htiles⟩
  rw [← hfront]
  rfl

end Tinct
