import Tinct.Proofs.Scan.Replay

/-!
# Leaf tokens by where they stand

What kind of leaf token stands where, and with which scope, can be read off the events around it:

* `Classified`: what makes a token text, a keyword or a delimiter between the events around it;
* `AllClassified`: all tokens among events are classified;
* `Replays.accounted`: whatever is written write by write is classified, each token when it is
  written, although text may wait for long and join text in front of it;
* `tokens_classified`: so is each leaf token of a tokenization.
-/

namespace Tinct

section classified
variable (g : Grammar) (read : Span → String) (begun : Nat → Span → Prop)
  (ended : Nat → Nat → Span → Prop)

/-- What makes a leaf token one of its kind, between the events `front`, first to last, and the
event `next`. Spans are read with `read`, and the lexemes of regions are among `begun` and
`ended`. -/
inductive Classified (front : List Event) (next : Option Event) : Token → Prop where
  /-- Plain text has the scope of the innermost open region that has one. -/
  | text (span : Span) : Classified front next ⟨span, textScope (openBehind front), .text⟩
  /-- A keyword is known to the table of the innermost mode, with its category. -/
  | keyword {span : Span} {k : Keyword}
      (hk : (g.effectiveKeywords (g.innermost (openBehind front))).1.lookup (read span) = some k) :
      Classified front next ⟨span, some k.category, .keyword⟩
  /-- The begin lexeme of a region stands just inside its enter, or just outside it. -/
  | beginLexeme {id : Nat} {span : Span} {scope : Scope} (hbegun : begun id span)
      (hempty : span.isEmpty = false) (hscope : (g.mode id).beginScope = some scope)
      (hplace : if (g.mode id).flags.excludeBegin
        then next = some (.enter id (g.mode id).scope span.stop)
        else front.getLast? = some (.enter id (g.mode id).scope span.start)) :
      Classified front next ⟨span, some scope, .delimiter⟩
  /-- The end lexeme of a region, unless it is scanned again, stands just inside its exit, or just
  outside it. -/
  | endLexeme {id start : Nat} {span : Span} {scope : Scope} (hended : ended id start span)
      (hempty : span.isEmpty = false) (hscope : (g.mode id).endScope = some scope)
      (hreturn : (g.mode id).flags.returnEnd = false)
      (hplace : if (g.mode id).flags.excludeEnd
        then front.getLast? = some (.exit id (g.mode id).scope ⟨start, span.start⟩ .matched)
        else next = some (.exit id (g.mode id).scope ⟨start, span.stop⟩ .matched)) :
      Classified front next ⟨span, some scope, .delimiter⟩

/-- All tokens among events, given last first, are classified; `next` stands behind them. -/
def AllClassified : Option Event → List Event → Prop
  | _, [] => True
  | next, e :: es =>
    (∀ tok, e = .token tok → Classified g read begun ended es.reverse next tok) ∧
      AllClassified (some e) es

end classified

section
variable {g : Grammar} {read : Span → String} {begun : Nat → Span → Prop}
  {ended : Nat → Nat → Span → Prop} {front : List Event} {next : Option Event} {tok : Token}

/-- What stands behind a token does not matter, unless it is the enter or the exit of a region. -/
theorem Classified.of_next {next' : Option Event}
    (h : Classified g read begun ended front next tok)
    (hnext : next = none ∨ ∃ tok', next = some (.token tok')) :
    Classified g read begun ended front next' tok := by
  have hne (e : Event) (he : ∀ tok', e ≠ .token tok') : next ≠ some e := by
    rintro rfl
    obtain h | ⟨tok', h⟩ := hnext
    · cases h
    · exact he tok' (Option.some.inj h)
  cases h with
  | text span => exact .text span
  | keyword hk => exact .keyword hk
  | @beginLexeme id span scope hbegun hempty hscope hplace =>
    refine .beginLexeme hbegun hempty hscope ?_
    split at hplace
    · exact absurd hplace (hne _ nofun)
    · rename_i hexclude
      rwa [if_neg hexclude]
  | @endLexeme id start span scope hended hempty hscope hreturn hplace =>
    refine .endLexeme hended hempty hscope hreturn ?_
    split at hplace
    · rename_i hexclude
      rwa [if_pos hexclude]
    · exact absurd hplace (hne _ nofun)

theorem Classified.of_textScope {os : List OpenRegion} (h : openBehind front = os) (span : Span) :
    Classified g read begun ended front next ⟨span, textScope os, .text⟩ := by
  rw [← h]
  exact .text span

theorem AllClassified.of_next {es : List Event} {next' : Option Event}
    (h : AllClassified g read begun ended next es)
    (hnext : next = none ∨ ∃ tok', next = some (.token tok')) :
    AllClassified g read begun ended next' es := by
  cases es with
  | nil => trivial
  | cons e es => exact ⟨fun tok he => (h.1 tok he).of_next hnext, h.2⟩

/-- Events that are no tokens may stand anywhere. -/
theorem AllClassified.cons {es : List Event} {e : Event}
    (h : AllClassified g read begun ended none es) (he : ∀ tok, e ≠ .token tok) :
    AllClassified g read begun ended next (e :: es) :=
  ⟨fun tok heq => absurd heq (he tok), h.of_next (.inl rfl)⟩

theorem AllClassified.token {es : List Event} (h : AllClassified g read begun ended none es)
    (htok : Classified g read begun ended es.reverse next tok) :
    AllClassified g read begun ended next (.token tok :: es) :=
  ⟨fun tok' heq => by cases heq; exact htok, h.of_next (.inl rfl)⟩

/-- Each token stands between the events around it. -/
theorem AllClassified.classified {es : List Event}
    (h : AllClassified g read begun ended next es) {back : List Event}
    (hes : es.reverse = front ++ .token tok :: back) :
    Classified g read begun ended front (back.head?.or next) tok := by
  induction es generalizing next back with
  | nil => simp at hes
  | cons e es ih =>
    rw [List.reverse_cons] at hes
    obtain rfl | ⟨back, e', rfl⟩ := List.eq_nil_or_concat back
    · obtain ⟨rfl, heq⟩ := List.append_inj' hes rfl
      exact h.1 tok (List.singleton_inj.mp heq)
    · rw [List.concat_eq_append, ← List.cons_append, ← List.append_assoc] at hes
      obtain ⟨hfront, heq⟩ := List.append_inj' hes rfl
      obtain rfl := List.singleton_inj.mp heq
      have hclassified := ih h.2 hfront
      cases back with
      | nil => exact hclassified
      | cons e' back => exact hclassified

/-- A classified token stays classified where all events stand at other offsets. -/
theorem Classified.map {f : Nat → Nat} {read' : Span → String} {begun' : Nat → Span → Prop}
    {ended' : Nat → Nat → Span → Prop} (h : Classified g read begun ended front next tok)
    (hread : read' (tok.span.map f) = read tok.span)
    (hempty : tok.span.isEmpty = false → (tok.span.map f).isEmpty = false)
    (hbegun : ∀ id span, begun id span → begun' id (span.map f))
    (hended : ∀ id start span, ended id start span → ended' id (f start) (span.map f)) :
    Classified g read' begun' ended' (front.map (·.mapOffsets f)) (next.map (·.mapOffsets f))
      { tok with span := tok.span.map f } := by
  have hscope : textScope (openBehind (front.map (·.mapOffsets f))) =
      textScope (openBehind front) := by rw [openBehind_map, textScope_map]
  cases h with
  | text span =>
    rw [← hscope]
    exact .text (span.map f)
  | keyword hk =>
    refine .keyword ?_
    rwa [openBehind_map, innermost_map, hread]
  | beginLexeme hb hempty' hscope hplace =>
    refine .beginLexeme (hbegun _ _ hb) (hempty hempty') hscope ?_
    split at hplace
    · rename_i hexclude
      rw [if_pos hexclude, hplace]
      rfl
    · rename_i hexclude
      rw [if_neg hexclude, List.getLast?_map, hplace]
      rfl
  | endLexeme he hempty' hscope hreturn hplace =>
    refine .endLexeme (hended _ _ _ he) (hempty hempty') hscope hreturn ?_
    split at hplace
    · rename_i hexclude
      rw [if_pos hexclude, List.getLast?_map, hplace]
      rfl
    · rename_i hexclude
      rw [if_neg hexclude, hplace]
      rfl

end

namespace Scan

/-! ## Lexemes at their byte offsets -/

/-- One of the steps of a trace is a begin of the mode `id` at the lexeme that lies in `source` at
the byte offsets `span`. -/
def BeginsAtOffset (source : String) (steps : List Step) (id : Nat) (span : Span) : Prop :=
  ∃ lexeme, BeginsAt steps id lexeme ∧ span = lexeme.map (Text.ofString source).offset

/-- One of the steps of a trace ends the region of the mode `id` that starts at the byte offset
`start` of `source`, at the lexeme that lies at the byte offsets `span`. -/
def EndsAtOffset (g : Grammar) (source : String) (steps : List Step) (id start : Nat)
    (span : Span) : Prop :=
  ∃ i lexeme, EndsAt g (.ofString source) steps id i lexeme ∧
    start = (Text.ofString source).offset i ∧ span = lexeme.map (Text.ofString source).offset

/-! ## Logs write by write -/

section replays
variable {g : Grammar} {t : Text} {begun : Nat → Span → Prop} {ended : Nat → Nat → Span → Prop}
  {os : List OpenRegion} {l : Log}

/-- The events of a log are classified, and `os` are open behind them. -/
structure Log.Accounted (g : Grammar) (t : Text) (begun : Nat → Span → Prop)
    (ended : Nat → Nat → Span → Prop) (os : List OpenRegion) (l : Log) : Prop where
  openBehind : openBehind l.events.reverse = os
  classified : AllClassified g t.extract begun ended none l.events

namespace Log.Accounted

theorem event {e : Event} {os' : List OpenRegion} (h : l.Accounted g t begun ended os)
    (hos : e.reopen os = os') (he : ∀ tok, e ≠ .token tok) :
    (l.event e).Accounted g t begun ended os' := by
  refine ⟨?_, h.classified.cons he⟩
  rw [Log.event, List.reverse_cons, openBehind_concat, h.openBehind, hos]

theorem token_event {tok : Token} (h : l.Accounted g t begun ended os)
    (htok : Classified g t.extract begun ended l.events.reverse none tok) :
    (l.event (.token tok)).Accounted g t begun ended os := by
  refine ⟨?_, h.classified.token htok⟩
  rw [Log.event, List.reverse_cons, openBehind_concat, h.openBehind]
  rfl

theorem raw {span : Span} (h : l.Accounted g t begun ended []) :
    (l.raw span).Accounted g t begun ended [] := by
  unfold Log.raw
  split
  · exact h
  · exact h.token_event (.of_textScope h.openBehind span)

/-- Plain text takes the scope in force. Where it joins the text in front of it, that stood in the
same regions. -/
theorem text {span : Span} (h : l.Accounted g t begun ended os) :
    (l.token ⟨span, textScope os, .text⟩).Accounted g t begun ended os := by
  obtain ⟨-, ht⟩ | ⟨-, ht⟩ | ⟨last, rest, hevents, hlast, -, hscope, ht⟩ :=
    l.token_cases ⟨span, textScope os, .text⟩
  · rwa [ht]
  · rw [ht]
    exact h.token_event (.of_textScope h.openBehind span)
  · obtain ⟨hopen, hclassified⟩ := h
    rw [hevents] at hopen hclassified
    rw [List.reverse_cons, openBehind_concat] at hopen
    change Tinct.openBehind rest.reverse = os at hopen
    obtain ⟨span', scope, kind⟩ := last
    obtain rfl : kind = .text := hlast
    obtain rfl : scope = textScope os := hscope
    rw [ht]
    refine ⟨by rw [List.reverse_cons, openBehind_concat]; exact hopen, ?_⟩
    refine .token (hclassified.2.of_next (.inr ⟨_, rfl⟩)) ?_
    exact .of_textScope hopen _

theorem textIn (h : l.Accounted g t begun ended os) (span : Span) :
    (l.textIn g t os span).Accounted g t begun ended os := by
  refine Log.text_induction h span (fun l span h => h.text) fun l span k h _ hk => ?_
  have hkeyword :
      (l.event (.token ⟨span, some k.category, .keyword⟩)).Accounted g t begun ended os :=
    h.token_event (.keyword (by rwa [h.openBehind]))
  exact ⟨hkeyword.openBehind, hkeyword.classified⟩

theorem announce (h : l.Accounted g t begun ended os) (id : Nat) (waits : Span) :
    (l.announce g t os id waits).Accounted g t begun ended os := by
  refine textIn ?_ waits
  exact ⟨by rw [scoreMode_events]; exact h.openBehind,
    by rw [scoreMode_events]; exact h.classified⟩

/-- A delimiter that is classified by what stands in front of it. -/
theorem delimiter {span : Span} {scope : Scope} (h : l.Accounted g t begun ended os)
    (htok : span.isEmpty = false →
      Classified g t.extract begun ended l.events.reverse none ⟨span, some scope, .delimiter⟩) :
    (l.delimiter span scope).Accounted g t begun ended os := by
  rw [Log.delimiter, token_of_kind_ne (by simp)]
  split
  · exact h
  · rename_i hempty
    exact h.token_event (htok (Bool.eq_false_iff.mpr hempty))

/-- A delimiter that is classified by the event behind it. -/
theorem delimiter_event {span : Span} {scope : Scope} {e : Event} {os' : List OpenRegion}
    (h : l.Accounted g t begun ended os) (hos : e.reopen os = os') (he : ∀ tok, e ≠ .token tok)
    (htok : span.isEmpty = false →
      Classified g t.extract begun ended l.events.reverse (some e) ⟨span, some scope, .delimiter⟩) :
    ((l.delimiter span scope).event e).Accounted g t begun ended os' := by
  rw [Log.delimiter, token_of_kind_ne (by simp)]
  split
  · exact h.event hos he
  · rename_i hempty
    refine ⟨?_, fun tok heq => absurd heq (he tok),
      h.classified.token (htok (Bool.eq_false_iff.mpr hempty))⟩
    simp only [Log.event, List.reverse_cons, openBehind_concat, h.openBehind]
    exact hos

end Log.Accounted

/-- Whatever is written write by write is classified. -/
theorem Replays.accounted (h : Replays g t begun ended os l) : l.Accounted g t begun ended os := by
  induction h with
  | start => exact ⟨rfl, trivial⟩
  | text _ span ih => exact ih.textIn span
  | enter _ _ waits start ih => exact (ih.announce _ waits).event rfl (by simp)
  | @enterWith os l id span scope _ _ hbegun hscope hexclude waits ih =>
    have henter := (ih.announce id waits).event (e := .enter id (g.mode id).scope span.start) rfl
      (by simp)
    refine henter.delimiter fun hempty => ?_
    exact .beginLexeme hbegun hempty hscope (by simp [hexclude, Log.event])
  | @enterBehind os l id span scope _ _ hbegun hscope hexclude waits ih =>
    refine (ih.announce id waits).delimiter_event rfl (by simp) fun hempty => ?_
    exact .beginLexeme hbegun hempty hscope (by simp [hexclude])
  | exit _ stop closure ih => exact ih.event rfl (by simp)
  | @exitWith o os l span scope h hended hscope hreturn hexclude ih =>
    have hregion := h.scope_eq o List.mem_cons_self
    refine ih.delimiter_event rfl (by simp) fun hempty => ?_
    exact .endLexeme hended hempty hscope hreturn (by simp [hexclude, hregion])
  | @exitBefore o os l span scope h hended hscope hreturn hexclude ih =>
    have hregion := h.scope_eq o List.mem_cons_self
    have hexit := ih.event (e := .exit o.mode o.scope ⟨o.start, span.start⟩ .matched) rfl (by simp)
    refine hexit.delimiter fun hempty => ?_
    exact .endLexeme hended hempty hscope hreturn (by simp [hexclude, hregion, Log.event])
  | rest _ span ih => exact ih.raw

end replays

end Scan

open Scan

/-- Each leaf token of a tokenization is classified by the events around it: plain text by the
scopes of the open regions, a keyword by the table of the innermost mode, and a delimiter by the
region whose begin or end lexeme it is. This goes for what is left behind an illegal sequence as
well. -/
theorem tokens_classified {d : GrammarDef} {g : Grammar} {policy : IllegalPolicy} {source : String}
    {r : Tokenization} (hd : Grammar.compile d = .ok g) (h : g.tokenize policy source = .ok r) :
    ∃ steps s, Trace g (.ofString source) steps s ∧ Ends g (.ofString source) policy s (.ok r) ∧
      ∀ front tok back, r.events = front ++ .token tok :: back →
        Classified g (slice source) (BeginsAtOffset source steps) (EndsAtOffset g source steps)
          front
          back.head? tok := by
  have hg := Grammar.compile_numbered hd
  obtain ⟨steps, s, htrace, hends⟩ := (tokenize_eq_iff hg).mp h
  refine ⟨steps, s, htrace, hends, fun front tok back hevents => ?_⟩
  obtain ⟨l, hreplays, hwritten, -, hr⟩ := hends.exists_replays hg htrace
  rw [hr, List.map_eq_append_iff] at hevents
  obtain ⟨front, rest, hes, rfl, hrest⟩ := hevents
  obtain ⟨e, back, rfl, he, rfl⟩ := List.map_eq_cons_iff.mp hrest
  obtain ⟨tok', rfl, rfl⟩ : ∃ tok', e = .token tok' ∧
      tok = { tok' with span := tok'.span.map (Text.ofString source).offset } := by
    cases e with
    | token tok' => cases he; exact ⟨tok', rfl, rfl⟩
    | enter mode scope offset => cases he
    | exit mode scope span closure => cases he
  obtain ⟨-, hlt, hsize⟩ := hwritten.covers.tiles.within tok' (by simp [hes, leaves])
  have hclassified := hreplays.accounted.classified.classified hes
  rw [Option.or_none] at hclassified
  rw [List.head?_map]
  refine hclassified.map (slice_offset source hlt.le) (fun _ => ?_) (fun id span hb => ?_)
    fun id start span he => ?_
  · exact beq_eq_false_iff_ne.mpr ((Text.ofString source).offset_lt_offset hlt hsize).ne
  · exact ⟨span, hb, rfl⟩
  · exact ⟨start, span, he, rfl, rfl⟩

/-- Words, some of them keywords, and remarks in angle brackets of which the last one does not
belong to the remark. -/
def remarksDef : GrammarDef where
  name := "remarks"
  keywords := some (.table (some "[a-z]+") [("word", "let|3 be")])
  contains := [.ref "remark"]
  modes := [("remark",
    { scope := some "remark", begin := some (.source "<"), finish := some (.source ">")
      beginScope := some "open", endScope := some "close", excludeEnd := true
      relevance := some 5 })]

theorem compile_remarksDef : (Grammar.compile remarksDef).toOption.isSome = true := by
  decide +kernel

def remarks : Grammar := (Grammar.compile remarksDef).toOption.get compile_remarksDef

theorem compile_eq_remarks : Grammar.compile remarksDef = .ok remarks :=
  eq_ok_of_toOption_eq_some (Option.some_get compile_remarksDef).symm

/-- A keyword and a remark. -/
def keywordAndRemark : Tokenization where
  events := [.token ⟨⟨0, 3⟩, some ⟨"word"⟩, .keyword⟩, .token ⟨⟨3, 4⟩, none, .text⟩,
    .enter 1 (some ⟨"remark"⟩) 4, .token ⟨⟨4, 5⟩, some ⟨"open"⟩, .delimiter⟩,
    .token ⟨⟨5, 7⟩, some ⟨"word"⟩, .keyword⟩, .token ⟨⟨7, 9⟩, some ⟨"remark"⟩, .text⟩,
    .exit 1 (some ⟨"remark"⟩) ⟨4, 9⟩ .matched, .token ⟨⟨9, 10⟩, some ⟨"close"⟩, .delimiter⟩]
  relevance := 9
  illegal := none

theorem tokenize_remarks : remarks.tokenize .abort "let <be x>" = .ok keywordAndRemark :=
  eq_ok_of_toOption_eq_some (by decide +kernel)

theorem tokens_classified_remarks :
    Grammar.compile remarksDef = .ok remarks ∧
      remarks.tokenize .abort "let <be x>" = .ok keywordAndRemark ∧
      ∃ steps, Classified remarks (slice "let <be x>") (BeginsAtOffset "let <be x>" steps)
          (EndsAtOffset remarks "let <be x>" steps) (keywordAndRemark.events.take 5)
          keywordAndRemark.events[6]? ⟨⟨7, 9⟩, some ⟨"remark"⟩, .text⟩ ∧
        Classified remarks (slice "let <be x>") (BeginsAtOffset "let <be x>" steps)
          (EndsAtOffset remarks "let <be x>" steps) (keywordAndRemark.events.take 7)
          none ⟨⟨9, 10⟩, some ⟨"close"⟩, .delimiter⟩ := by
  obtain ⟨steps, -, -, -, hclassified⟩ := tokens_classified compile_eq_remarks tokenize_remarks
  exact ⟨compile_eq_remarks, tokenize_remarks, steps, hclassified _ _ [_, _] rfl,
    hclassified _ _ [] rfl⟩

end Tinct
