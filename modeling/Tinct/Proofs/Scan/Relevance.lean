import Mathlib.Data.List.Dedup
import Tinct.Proofs.Scan.Classification

/-!
# Relevance from the events

The relevance of a text saturates at every addition, and modes and keywords are scored in the order
in which the scan comes to them. What is reported is what the events add up to all the same:

* `Log.Scored`: the relevance of a log is that of the modes entered and of the keywords written,
  bounded once;
* `Replays.scored`, `Replays.counted`: so it is for every log that comes about write by write, and
  the modes entered are those of the enters, each once;
* `tokenize_relevance`: the relevance of a tokenization, from its events alone.
-/

namespace Tinct
namespace Scan

/-- What the modes `ids` add to the relevance of a text. -/
def modeWeight (g : Grammar) (ids : List Nat) : Nat := (ids.map fun id => (g.mode id).relevance).sum

namespace Log

@[simp] theorem token_relevance (l : Log) (tok : Token) :
    (l.token tok).relevance = l.relevance := by
  obtain ⟨-, h⟩ | ⟨-, h⟩ | ⟨_, _, -, -, -, -, h⟩ := l.token_cases tok
  · rw [h]
  · rw [h]; rfl
  · rw [h]

@[simp] theorem token_entered (l : Log) (tok : Token) : (l.token tok).entered = l.entered := by
  obtain ⟨-, h⟩ | ⟨-, h⟩ | ⟨_, _, -, -, -, -, h⟩ := l.token_cases tok
  · rw [h]
  · rw [h]; rfl
  · rw [h]

@[simp] theorem enteredModes_token (l : Log) (tok : Token) :
    enteredModes (l.token tok).events.reverse = enteredModes l.events.reverse := by
  obtain ⟨-, h⟩ | ⟨-, h⟩ | ⟨last, rest, hevents, -, -, -, h⟩ := l.token_cases tok
  · rw [h]
  · simp [h, event, enteredModes]
  · simp [h, hevents, enteredModes]

@[simp] theorem openBehind_token (l : Log) (tok : Token) :
    openBehind (l.token tok).events.reverse = openBehind l.events.reverse := by
  obtain ⟨-, h⟩ | ⟨-, h⟩ | ⟨last, rest, hevents, -, -, -, h⟩ := l.token_cases tok
  · rw [h]
  · simp [h, event, Event.reopen]
  · simp [h, hevents, Event.reopen]

theorem keywordWeight_event (g : Grammar) (read : Span → String) (l : Log) (e : Event) :
    keywordWeight g read [] (l.event e).events.reverse =
      keywordWeight g read [] l.events.reverse + e.weight g read (openBehind l.events.reverse) := by
  rw [event, List.reverse_cons, keywordWeight_concat]
  rfl

/-- Tokens other than keywords weigh nothing, whether they join what is in front of them or not. -/
theorem keywordWeight_token (g : Grammar) (read : Span → String) (l : Log) {tok : Token}
    (hkind : tok.kind ≠ .keyword) :
    keywordWeight g read [] (l.token tok).events.reverse =
      keywordWeight g read [] l.events.reverse := by
  obtain ⟨-, h⟩ | ⟨-, h⟩ | ⟨last, rest, hevents, hlast, -, -, h⟩ := l.token_cases tok
  · rw [h]
  · rw [h, keywordWeight_event, Event.weight, if_neg hkind, Nat.add_zero]
  · have hne : last.kind ≠ .keyword := by rw [hlast]; simp
    rw [h, hevents, List.reverse_cons, keywordWeight_concat, List.reverse_cons,
      keywordWeight_concat, Event.weight, if_neg hne, Event.weight, if_neg hne]

/-- The relevance of a log is that of the modes entered and of the keywords written, where `os` are
open. -/
structure Scored (g : Grammar) (t : Text) (os : List OpenRegion) (l : Log) : Prop where
  openBehind : openBehind l.events.reverse = os
  relevance : l.relevance =
    min (modeWeight g l.entered + keywordWeight g t.extract [] l.events.reverse) maxWeight

section scored
variable {g : Grammar} {t : Text} {os : List OpenRegion} {l : Log}

namespace Scored

theorem event {e : Event} {os' : List OpenRegion} (h : l.Scored g t os) (hos : e.reopen os = os')
    (he : ∀ tok, e ≠ .token tok) : (l.event e).Scored g t os' := by
  constructor
  · rw [Log.event, List.reverse_cons, openBehind_concat, h.openBehind, hos]
  · have hweight : e.weight g t.extract (Tinct.openBehind l.events.reverse) = 0 := by
      cases e with
      | token tok => exact absurd rfl (he tok)
      | enter mode scope offset => rfl
      | exit mode scope span closure => rfl
    rw [keywordWeight_event, hweight]
    exact h.relevance

theorem token {tok : Token} (h : l.Scored g t os) (hkind : tok.kind ≠ .keyword) :
    (l.token tok).Scored g t os := by
  refine ⟨by rw [openBehind_token, h.openBehind], ?_⟩
  rw [token_relevance, token_entered, keywordWeight_token g t.extract l hkind, h.relevance]

theorem raw {span : Span} (h : l.Scored g t os) : (l.raw span).Scored g t os := by
  unfold Log.raw
  split
  · exact h
  · refine ⟨?_, ?_⟩
    · rw [Log.event, List.reverse_cons, openBehind_concat, h.openBehind]
      rfl
    · rw [keywordWeight_event, Event.weight, if_neg (by simp)]
      exact h.relevance

/-- A keyword adds its weight to what the events weigh. -/
theorem keyword {span : Span} {k : Keyword} (h : l.Scored g t os)
    (hk : (g.effectiveKeywords (g.innermost os)).1.lookup (t.extract span) = some k) :
    ((l.event (.token ⟨span, some k.category, .keyword⟩)).score k.weight).Scored g t os := by
  constructor
  · rw [score, Log.event, List.reverse_cons, openBehind_concat, h.openBehind]
    rfl
  · have hweight : Event.weight g t.extract (Tinct.openBehind l.events.reverse)
        (.token ⟨span, some k.category, .keyword⟩) = k.weight := by
      rw [h.openBehind, Event.weight, if_pos rfl, Grammar.wordWeight, hk]
      rfl
    have hrelevance := h.relevance
    rw [score, keywordWeight_event, hweight]
    dsimp only [Log.event]
    omega

theorem textIn (h : l.Scored g t os) (span : Span) : (l.textIn g t os span).Scored g t os :=
  Log.text_induction h span (fun _ _ h => h.token (by simp)) fun _ _ _ h _ hk => h.keyword hk

/-- A mode adds its relevance when it is entered for the first time. -/
theorem scoreMode (h : l.Scored g t os) {id : Nat} (hid : (g.mode id).id = id) :
    (l.scoreMode (g.mode id)).Scored g t os := by
  unfold Log.scoreMode
  split
  · exact h
  · refine ⟨h.openBehind, ?_⟩
    have hrelevance := h.relevance
    have hmodes : modeWeight g (id :: l.entered) =
        (g.mode id).relevance + modeWeight g l.entered := by simp [modeWeight]
    rw [hid, score, hmodes]
    dsimp only
    omega

theorem announce (h : l.Scored g t os) {id : Nat} (hid : (g.mode id).id = id) (waits : Span) :
    (l.announce g t os id waits).Scored g t os :=
  (h.scoreMode hid).textIn waits

end Scored

/-- Text enters no mode. -/
theorem textIn_entered (g : Grammar) (t : Text) (os : List OpenRegion) (span : Span) (l : Log) :
    (l.textIn g t os span).entered = l.entered ∧
      enteredModes (l.textIn g t os span).events.reverse = enteredModes l.events.reverse := by
  refine text_induction (P := fun l' => l'.entered = l.entered ∧
    enteredModes l'.events.reverse = enteredModes l.events.reverse) ⟨rfl, rfl⟩ span
    (fun l' span h => ?_) fun l' span k h _ _ => ?_
  · rwa [token_entered, enteredModes_token]
  · rw [score, event, List.reverse_cons, enteredModes_append, h.2]
    exact ⟨h.1, List.append_nil _⟩

/-- The modes that count as entered are `ids`, each of them once. -/
structure Entered (ids : List Nat) (l : Log) : Prop where
  nodup : l.entered.Nodup
  mem_iff : ∀ id, id ∈ l.entered ↔ id ∈ ids

/-- The modes that count as entered are those of the enters. -/
def Counted (l : Log) : Prop := l.Entered (enteredModes l.events.reverse)

theorem Entered.congr {ids : List Nat} {l' : Log} (h : l.Entered ids)
    (hentered : l'.entered = l.entered) : l'.Entered ids :=
  ⟨hentered ▸ h.nodup, hentered ▸ h.mem_iff⟩

theorem enteredModes_event (l : Log) (e : Event) :
    enteredModes (l.event e).events.reverse =
      enteredModes l.events.reverse ++ enteredModes [e] := by
  rw [event, List.reverse_cons, enteredModes_append]

/-- Events that are no enters leave the modes that count. -/
theorem Counted.event {e : Event} (h : l.Counted) (he : enteredModes [e] = []) :
    (l.event e).Counted := by
  rw [Counted, enteredModes_event, he, List.append_nil]
  exact h.congr rfl

theorem Counted.token (tok : Token) (h : l.Counted) : (l.token tok).Counted := by
  rw [Counted, enteredModes_token]
  exact h.congr (l.token_entered tok)

theorem Counted.textIn (span : Span) (h : l.Counted) : (l.textIn g t os span).Counted := by
  obtain ⟨hentered, hmodes⟩ := textIn_entered g t os span l
  rw [Counted, hmodes]
  exact h.congr hentered

/-- Scoring a mode makes it count. -/
theorem Counted.scoreMode {id : Nat} (hid : (g.mode id).id = id) (h : l.Counted) :
    (l.scoreMode (g.mode id)).Entered (enteredModes l.events.reverse ++ [id]) := by
  have hscored : (l.scoreMode (g.mode id)).entered =
      if l.entered.contains id then l.entered else id :: l.entered := by
    unfold Log.scoreMode
    rw [hid]
    split <;> rfl
  constructor
  · rw [hscored]
    split
    · exact h.nodup
    · rename_i hnew
      exact List.nodup_cons.mpr ⟨fun hmem => hnew (List.contains_iff_mem.mpr hmem), h.nodup⟩
  · intro id'
    rw [hscored, List.mem_append, List.mem_singleton, ← h.mem_iff]
    split
    · rename_i hold
      refine ⟨.inl, ?_⟩
      rintro (hmem | rfl)
      · exact hmem
      · exact List.contains_iff_mem.mp hold
    · rw [List.mem_cons, or_comm]

/-- The mode of a region counts by the time its enter is written, whatever text and whichever
delimiter are written in between. -/
theorem Counted.enter {id : Nat} (hid : (g.mode id).id = id) (h : l.Counted) (waits : Span)
    {l' : Log} (hentered : l'.entered = (l.announce g t os id waits).entered)
    (hmodes : enteredModes l'.events.reverse =
      enteredModes (l.announce g t os id waits).events.reverse)
    (scope : Option Scope) (start : Nat) : (l'.event (.enter id scope start)).Counted := by
  obtain ⟨htext, hmodes'⟩ := textIn_entered g t os waits (l.scoreMode (g.mode id))
  rw [scoreMode_events] at hmodes'
  rw [Counted, enteredModes_event, hmodes, announce, hmodes']
  exact (h.scoreMode hid).congr (hentered.trans htext)

end scored
end Log

section replays
variable {g : Grammar} {t : Text} {begun : Nat → Span → Prop} {ended : Nat → Nat → Span → Prop}
  {os : List OpenRegion} {l : Log}

/-- Whatever is written write by write is scored by its events. -/
theorem Replays.scored (h : Replays g t begun ended os l) : l.Scored g t os := by
  induction h with
  | start => exact ⟨rfl, rfl⟩
  | text _ span ih => exact ih.textIn span
  | enter _ hid waits start ih => exact (ih.announce hid waits).event rfl (by simp)
  | @enterWith os l id span scope _ hid _ _ _ waits ih =>
    have henter := (ih.announce hid waits).event (e := .enter id (g.mode id).scope span.start) rfl
      (by simp)
    exact henter.token (by simp)
  | enterBehind _ hid _ _ _ waits ih =>
    exact ((ih.announce hid waits).token (by simp)).event rfl (by simp)
  | exit _ stop closure ih => exact ih.event rfl (by simp)
  | exitWith _ _ _ _ _ ih => exact (ih.token (by simp)).event rfl (by simp)
  | @exitBefore o os l span scope _ _ _ _ _ ih =>
    have hexit := ih.event (e := .exit o.mode o.scope ⟨o.start, span.start⟩ .matched) rfl (by simp)
    exact hexit.token (by simp)
  | rest _ span ih => exact ih.raw

theorem Replays.counted (h : Replays g t begun ended os l) : l.Counted := by
  induction h with
  | start => exact ⟨.nil, by simp [enteredModes]⟩
  | text _ span ih => exact ih.textIn span
  | enter _ hid waits start ih => exact ih.enter hid waits rfl rfl _ start
  | enterWith _ hid _ _ _ waits ih => exact (ih.enter hid waits rfl rfl _ _).token _
  | enterBehind _ hid _ _ _ waits ih =>
    exact ih.enter hid waits (Log.token_entered _ _) (Log.enteredModes_token _ _) _ _
  | exit _ stop closure ih => exact ih.event rfl
  | exitWith _ _ _ _ _ ih => exact (ih.token _).event rfl
  | @exitBefore o os l span scope _ _ _ _ _ ih =>
    exact Log.Counted.token _ (ih.event rfl)
  | rest _ span ih =>
    unfold Log.raw
    split
    · exact ih
    · exact ih.event rfl

end replays
end Scan

open Scan

/-- The relevance of a tokenization can be told from its events: what the modes add that are
entered, each once, and what the keywords weigh where they stand, bounded only at the end. -/
theorem tokenize_relevance {d : GrammarDef} {g : Grammar} {policy : IllegalPolicy} {source : String}
    {r : Tokenization} (hd : Grammar.compile d = .ok g) (h : g.tokenize policy source = .ok r) :
    r.relevance =
      min (((enteredModes r.events).dedup.map fun id => (g.mode id).relevance).sum +
        keywordWeight g (slice source) [] r.events) (2 ^ 32 - 1) := by
  have hg := Grammar.compile_numbered hd
  obtain ⟨steps, s, htrace, hends⟩ := (tokenize_eq_iff hg).mp h
  obtain ⟨l, hreplays, hwritten, hrelevance, hr⟩ := hends.exists_replays hg htrace
  have hentered := hreplays.counted
  have hperm : l.entered.Perm (enteredModes l.events.reverse).dedup := by
    refine (List.perm_ext_iff_of_nodup hentered.nodup (List.nodup_dedup _)).mpr fun id => ?_
    rw [List.mem_dedup]
    exact hentered.mem_iff id
  have hmodes : modeWeight g l.entered = modeWeight g (enteredModes l.events.reverse).dedup :=
    (hperm.map _).sum_eq
  have hwords : keywordWeight g (slice source) [] r.events =
      keywordWeight g (Text.ofString source).extract [] l.events.reverse := by
    rw [hr]
    refine keywordWeight_map _ g [] fun tok htok => ?_
    obtain ⟨-, hlt, -⟩ := hwritten.covers.tiles.within tok htok
    exact slice_offset source hlt.le
  rw [hrelevance, hreplays.scored.relevance, hmodes, hwords, hr, enteredModes_map]
  rfl

theorem tokenize_relevance_remarks :
    Grammar.compile remarksDef = .ok remarks ∧
      remarks.tokenize .abort "let <be x>" = .ok keywordAndRemark ∧
      9 = min (((enteredModes keywordAndRemark.events).dedup.map fun id =>
          (remarks.mode id).relevance).sum +
        keywordWeight remarks (slice "let <be x>") [] keywordAndRemark.events) (2 ^ 32 - 1) :=
  ⟨compile_eq_remarks, tokenize_remarks, tokenize_relevance compile_eq_remarks tokenize_remarks⟩

end Tinct
