import Tinct.Proofs.Scan.Exits

/-!
# Text in one piece

Text waits until the region that it stands in changes, so all text between two events of another
kind is written at once:

* `Event.parts`: the events between which text stands, and `Log.Parted`: a log behind which new text
  does not go on with text that has been written;
* `Divides`: tokens that divide a part of a text into keywords and what is left between them;
* `Log.Parted.text_divides`: so is text written behind a parted log;
* `Routes`: events among which all text has been written like that;
* `Trace.routed`: the log of each state that a trace leads to is routed, and parted.
-/

namespace Tinct

/-- Text does not go on behind the event: it is an enter, an exit or a delimiter. -/
def Event.parts : Event → Bool
  | token t => t.kind == .delimiter
  | enter _ _ _ | exit _ _ _ _ => true

/-- The part of a text between two positions, as a text. -/
def Text.part (t : Text) (s : Span) : Text := ⟨t.chars.extract s.start s.stop⟩

/-- A span is empty where it lies at other positions if and only if it is. -/
theorem Span.isEmpty_map {f : Nat → Nat} {s : Span} (hf : f s.start = f s.stop → s.start = s.stop) :
    (s.map f).isEmpty = s.isEmpty := by
  rw [Bool.eq_iff_iff, isEmpty, isEmpty, beq_iff_eq, beq_iff_eq]
  exact ⟨hf, congrArg f⟩

/-- What lies at the span is not empty, and the table has an entry for it. -/
def KeywordTable.knows (table : KeywordTable) (t : Text) (span : Span) : Bool :=
  !span.isEmpty && (table.lookup (t.extract span)).isSome

/-- The keywords in a text of a mode: the matches of the expression for candidates that are not
empty and that the table in force knows. -/
def Grammar.keywordsIn (g : Grammar) (m : Mode) (w : Text) : List Span :=
  ((g.effectiveKeywords m).2.findAll w).filter ((g.effectiveKeywords m).1.knows w)

/-- The parts of a text, from `i` up to `stop`, that lie in front of, between and behind spans. -/
def gaps (stop : Nat) : Nat → List Span → List Span
  | i, [] => [⟨i, stop⟩]
  | i, s :: ss => ⟨i, s.start⟩ :: gaps stop s.stop ss

/-- Tokens that divide a part of a text: the spans in `words` are keywords, and of the parts in
front of, between and behind them each one that is not empty is one token of text. -/
structure Divides (words : List Span) (span : Span) (toks : List Token) : Prop where
  tiles : Tiles span.start span.stop toks
  plain : ∀ tok ∈ toks, tok.kind ≠ .delimiter
  keywords : (toks.filter (·.kind = .keyword)).map (·.span) = words
  texts : (toks.filter (·.kind = .text)).map (·.span) =
    (gaps span.stop span.start words).filter (!·.isEmpty)

namespace Divides
variable {words : List Span} {stop : Nat} {toks : List Token}

/-- The text from `i` to `j`, as a token unless it is empty. -/
def piece (scope : Option Scope) (i j : Nat) : List Token :=
  if i = j then [] else [⟨⟨i, j⟩, scope, .text⟩]

theorem piece_self (scope : Option Scope) (i : Nat) : piece scope i i = [] := if_pos rfl

theorem piece_of_lt {i j : Nat} (h : i < j) (scope : Option Scope) :
    piece scope i j = [⟨⟨i, j⟩, scope, .text⟩] :=
  if_neg h.ne

/-- Text without keywords. -/
theorem of_piece (scope : Option Scope) {i j : Nat} (h : i ≤ j) :
    Divides [] ⟨i, j⟩ (piece scope i j) := by
  obtain rfl | hlt := Nat.eq_or_lt_of_le h
  · rw [piece_self]
    exact ⟨rfl, nofun, rfl, by simp [gaps, Span.isEmpty]⟩
  · rw [piece_of_lt hlt]
    exact ⟨⟨rfl, hlt, rfl⟩, by simp, by simp, by simp [gaps, Span.isEmpty, hlt.ne]⟩

/-- A keyword behind some text, and what comes behind the keyword. -/
theorem cons {i : Nat} {word : Span} {tok : Token} (h : Divides words ⟨word.stop, stop⟩ toks)
    (htok : tok.span = word) (hkind : tok.kind = .keyword) (hi : i ≤ word.start)
    (hword : word.start < word.stop) (scope : Option Scope) :
    Divides (word :: words) ⟨i, stop⟩ (piece scope i word.start ++ tok :: toks) := by
  obtain ⟨htiles, hplain, hkeywords, htexts⟩ := of_piece scope hi
  subst htok
  constructor
  · exact htiles.append ⟨rfl, hword, h.tiles⟩
  · intro tok' htok'
    obtain htok' | htok' := List.mem_append.mp htok'
    · exact hplain tok' htok'
    · obtain rfl | htok' := List.mem_cons.mp htok'
      · rw [hkind]
        nofun
      · exact h.plain tok' htok'
  · rw [List.filter_append, List.map_append, hkeywords,
      List.filter_cons_of_pos (by simpa using hkind), List.map_cons, h.keywords, List.nil_append]
  · rw [List.filter_append, List.map_append, htexts, List.filter_cons_of_neg (by simp [hkind]),
      h.texts]
    simp only [gaps]
    rw [← List.filter_append, List.singleton_append]

end Divides

namespace Scan

/-! ## Text behind a parted log -/

namespace Log
variable {g : Grammar} {t : Text} {l : Log}

/-- Text that is written next does not go on with text that has been written. -/
def Parted (l : Log) : Prop := ∀ e ∈ l.events.head?, e.parts = true

theorem parted_event {e : Event} (he : e.parts = true) : (l.event e).Parted := by
  rintro _ ⟨⟩
  exact he

theorem Parted.congr {l' : Log} (h : l.Parted) (hevents : l'.events = l.events) : l'.Parted := by
  rw [Parted, hevents]
  exact h

theorem delimiter_events (span : Span) (scope : Scope) (l : Log) :
    (l.delimiter span scope).events =
      if span.isEmpty then l.events
      else .token ⟨span, some scope, .delimiter⟩ :: l.events := by
  rw [delimiter, token_of_kind_ne (by simp)]
  split <;> rfl

theorem Parted.delimiter (h : l.Parted) (span : Span) (scope : Scope) :
    (l.delimiter span scope).Parted := by
  intro e he
  rw [delimiter_events] at he
  split at he
  · exact h e he
  · cases he
    rfl

/-- The last event is no text. -/
def Settled (l : Log) : Prop := ∀ tok, l.events.head? = some (.token tok) → tok.kind ≠ .text

theorem Parted.settled (h : l.Parted) : l.Settled := by
  intro tok htok hkind
  have hparts := h _ htok
  rw [Event.parts, hkind] at hparts
  cases hparts

/-- Behind an event that is no text, a token joins nothing. -/
theorem Settled.token_eq (h : l.Settled) (tok : Token) :
    l.token tok = if tok.span.isEmpty then l else l.event (.token tok) := by
  obtain ⟨hempty, ht⟩ | ⟨hempty, ht⟩ | ⟨last, rest, hevents, hlast, -⟩ := l.token_cases tok
  · rw [ht, if_pos hempty]
  · rw [ht, if_neg (Bool.eq_false_iff.mp hempty)]
  · exact absurd hlast (h last (by rw [hevents]; rfl))

theorem Settled.token_text_events (h : l.Settled) (scope : Option Scope) (i j : Nat) :
    (l.token ⟨⟨i, j⟩, scope, .text⟩).events =
      ((Divides.piece scope i j).map .token).reverse ++ l.events := by
  rw [h.token_eq, Divides.piece]
  by_cases hij : i = j
  · rw [if_pos hij, if_pos (show Span.isEmpty ⟨i, j⟩ = true from beq_iff_eq.mpr hij)]
    rfl
  · rw [if_neg hij, if_neg (show ¬ Span.isEmpty ⟨i, j⟩ = true from fun h => hij (eq_of_beq h))]
    rfl

/-- A keyword is no text. -/
theorem settled_keyword (l : Log) (span : Span) (k : Keyword) :
    ((l.event (.token ⟨span, some k.category, .keyword⟩)).score k.weight).Settled := by
  rintro _ ⟨⟩ hkind
  cases hkind

/-- A hit is written as a keyword exactly if the table knows it. -/
theorem known_cases (table : KeywordTable) (t : Text) (start : Nat) (hit : Span) :
    (if hit.isEmpty then none
      else table.lookup (t.extract ⟨start + hit.start, start + hit.stop⟩)) = none ∧
        ¬ table.knows t (hit.map (start + ·)) ∨
      ∃ k, (if hit.isEmpty then none
        else table.lookup (t.extract ⟨start + hit.start, start + hit.stop⟩)) = some k ∧
          table.knows t (hit.map (start + ·)) ∧ hit.start ≠ hit.stop := by
  rw [KeywordTable.knows, Span.isEmpty_map Nat.add_left_cancel]
  by_cases h : hit.isEmpty = true
  · exact .inl ⟨if_pos h, by simp [h]⟩
  · rw [if_neg h]
    have hne : hit.start ≠ hit.stop := fun heq => h (beq_iff_eq.mpr heq)
    cases hk : table.lookup (t.extract ⟨start + hit.start, start + hit.stop⟩) with
    | none => exact .inl ⟨rfl, by simp [Span.map, hk]⟩
    | some k => exact .inr ⟨k, rfl, by simp [Span.map, hk, h], hne⟩

/-- Hits in the order of the text divide it: those that are keywords, and the text between. -/
theorem keywords_divides {table : KeywordTable} {scope : Option Scope} {start stop n i : Nat}
    {hits : List Span} (hl : l.Settled) (hstart : start ≤ i) (hi : i ≤ stop)
    (hhits : Regex.Ordered (i - start) n hits) (hn : start + n ≤ stop) :
    ∃ toks, (keywords table scope t start stop i hits l).events =
        (toks.map Event.token).reverse ++ l.events ∧
      Divides ((hits.map (·.map (start + ·))).filter (table.knows t)) ⟨i, stop⟩ toks := by
  induction hits generalizing i l with
  | nil => exact ⟨_, hl.token_text_events scope i stop, .of_piece scope hi⟩
  | cons hit hits ih =>
    obtain ⟨⟨h1, h2, h3⟩, hrest⟩ := hhits
    rw [keywords, List.map_cons]
    dsimp only
    obtain ⟨hnone, hout⟩ | ⟨k, hk, hin, hne⟩ := known_cases table t start hit
    · rw [hnone, List.filter_cons_of_neg hout]
      exact ih hl hstart hi (hrest.mono (by omega))
    · have hword : ¬ (⟨start + hit.start, start + hit.stop⟩ : Span).isEmpty = true := fun heq =>
        hne (Nat.add_left_cancel (eq_of_beq heq))
      rw [hk, List.filter_cons_of_pos hin]
      dsimp only
      rw [token_of_kind_ne (by simp), if_neg hword]
      obtain ⟨toks, hevents, hdivides⟩ := ih
        (settled_keyword (l.token ⟨⟨i, start + hit.start⟩, scope, .text⟩) _ k)
        (Nat.le_add_right _ _) (show start + hit.stop ≤ stop by omega)
        (by rwa [Nat.add_sub_cancel_left])
      have hspan : Token.span ⟨⟨start + hit.start, start + hit.stop⟩, some k.category, .keyword⟩ =
        hit.map (start + ·) := rfl
      refine ⟨_, ?_, hdivides.cons hspan rfl (show i ≤ start + hit.start by omega)
        (show start + hit.start < start + hit.stop by omega) scope⟩
      rw [hevents, score, event]
      dsimp only
      rw [hl.token_text_events, List.map_append, List.reverse_append, List.map_cons,
        List.reverse_cons, List.append_assoc, List.append_assoc]
      rfl

/-- What a part of a text knows of keywords is what the text does. -/
theorem knows_part {table : KeywordTable} {span hit : Span}
    (hhit : span.start + hit.stop ≤ span.stop) :
    table.knows (t.part span) hit = table.knows t (hit.map (span.start + ·)) := by
  have hextract : (t.part span).extract hit = t.extract (hit.map (span.start + ·)) := by
    rw [Text.extract, Text.part, Array.extract_extract, Nat.min_eq_left hhit]
    rfl
  rw [KeywordTable.knows, KeywordTable.knows, hextract, Span.isEmpty_map Nat.add_left_cancel]

/-- Text written behind a parted log is divided into its keywords and what is left. -/
theorem Parted.text_divides {m : Mode} {scope : Option Scope} {span : Span} (hl : l.Parted)
    (hspan : span.start ≤ span.stop) :
    ∃ toks, (l.text g m scope t span).events = (toks.map Event.token).reverse ++ l.events ∧
      Divides ((g.keywordsIn m (t.part span)).map (·.map (span.start + ·))) span toks := by
  have hn : span.start + (t.part span).size ≤ span.stop := by
    rw [Text.part, Text.size, Array.size_extract]
    omega
  have hordered := Regex.findAll_ordered (g.effectiveKeywords m).2 (t.part span)
  have hwords : (((g.effectiveKeywords m).2.findAll (t.part span)).map
        (·.map (span.start + ·))).filter ((g.effectiveKeywords m).1.knows t) =
      (g.keywordsIn m (t.part span)).map (·.map (span.start + ·)) := by
    rw [Grammar.keywordsIn, List.filter_map]
    congr 1
    refine List.filter_congr fun hit hhit => ?_
    obtain ⟨-, -, hstop⟩ := hordered.within hit hhit
    exact (knows_part (by omega)).symm
  have hnone (h : ∀ hit ∈ (g.effectiveKeywords m).2.findAll (t.part span),
      ¬ (g.effectiveKeywords m).1.knows (t.part span) hit) : g.keywordsIn m (t.part span) = [] :=
    List.filter_eq_nil_iff.mpr h
  unfold text
  split
  · -- an empty text has no keywords
    rename_i hempty
    have hstop : span.start = span.stop := eq_of_beq hempty
    rw [hnone fun hit hhit hknows => ?_]
    · have hdivides := Divides.of_piece scope hspan
      rw [hstop, Divides.piece_self] at hdivides
      obtain ⟨start, stop⟩ := span
      obtain rfl : start = stop := hstop
      exact ⟨[], rfl, hdivides⟩
    · obtain ⟨-, hle, hsize⟩ := hordered.within hit hhit
      have hne := (Bool.and_eq_true _ _).mp hknows |>.1
      have heq : hit.start = hit.stop := by omega
      rw [Span.isEmpty, heq, beq_self_eq_true] at hne
      cases hne
  · dsimp only
    split
    · rename_i hempty
      rw [hnone fun hit _ hknows => ?_]
      · exact keywords_divides (n := 0) hl.settled (Nat.le_refl _) hspan trivial hspan
      · have hsome := (Bool.and_eq_true _ _).mp hknows |>.2
        rw [KeywordTable.lookup, List.isEmpty_iff.mp hempty] at hsome
        cases hsome
    · rw [← hwords]
      exact keywords_divides hl.settled (Nat.le_refl _) hspan (by rwa [Nat.sub_self]) hn

end Log

/-! ## Events in which all text is in one piece -/

/-- Events, last first, with text among them that has been written at once, behind an event that
parts it from what is in front of it. -/
inductive Routes (g : Grammar) (t : Text) : List Event → Prop where
  | start : Routes g t []
  | part {es : List Event} {e : Event} (h : Routes g t es) (he : e.parts = true) :
      Routes g t (e :: es)
  | text {es : List Event} {toks : List Token} {span : Span} (h : Routes g t es)
      (hparted : ∀ e ∈ es.head?, e.parts = true)
      (hdivides : Divides ((g.keywordsIn (g.innermost (openBehind es.reverse))
        (t.part span)).map (·.map (span.start + ·))) span toks) :
      Routes g t ((toks.map Event.token).reverse ++ es)

section routes
variable {g : Grammar} {t : Text} {l : Log}

theorem Routes.delimiter (h : Routes g t l.events) (span : Span) (scope : Scope) :
    Routes g t (l.delimiter span scope).events := by
  rw [Log.delimiter_events]
  split
  · exact h
  · exact h.part rfl

theorem Routes.log_text (h : Routes g t l.events) (hl : l.Parted) {m : Mode} {scope : Option Scope}
    {span : Span} (hm : m = g.innermost (openBehind l.events.reverse))
    (hspan : span.start ≤ span.stop) : Routes g t (l.text g m scope t span).events := by
  obtain ⟨toks, hevents, hdivides⟩ := hl.text_divides hspan
  rw [hevents]
  exact h.text hl (hm ▸ hdivides)

end routes

/-! ## What the moves keep -/

namespace State
variable {g : Grammar} {t : Text} {s s' : State}

/-- The log of the state is routed and parted, and the frames stand for the regions that are open
behind it. -/
structure Routed (g : Grammar) (t : Text) (s : State) : Prop where
  retold : s.Retold g t (fun _ _ => True) fun _ _ _ => True
  routes : Routes g t s.log.events
  parted : s.log.Parted

/-- The mode of the innermost frame is that of the innermost region open behind the log. -/
theorem Routed.top_mode (h : s.Routed g t) :
    s.top.mode = g.innermost (openBehind s.log.events.reverse) := by
  rw [h.retold.top_mode, h.retold.replays.accounted.openBehind]

theorem flushTo_routes (hr : Routes g t s.log.events) (hp : s.log.Parted)
    (hm : s.top.mode = g.innermost (openBehind s.log.events.reverse)) (i : Nat) :
    Routes g t (s.flushTo g t i).log.events := by
  unfold flushTo
  split
  · exact hr
  · exact hr.log_text hp hm (Nat.le_of_not_le ‹_›)

theorem pop_parted (hb : s.below ≠ []) (stop : Nat) (closure : Closure) :
    (s.pop stop closure).log.Parted := by
  obtain ⟨frame, below, hbelow⟩ := List.exists_cons_of_ne_nil hb
  rw [pop_of_below hbelow]
  exact Log.parted_event rfl

theorem pop_routes (hr : Routes g t s.log.events) (stop : Nat) (closure : Closure) :
    Routes g t (s.pop stop closure).log.events := by
  obtain ⟨-, hp⟩ | ⟨frame, below, -, hp⟩ := s.pop_cases stop closure
  · rwa [hp]
  · rw [hp]
    exact hr.part rfl

/-- A region closes behind the text that has waited, and parts it from what comes. -/
theorem pop_flushTo_routed (h : s.Routed g t) (hb : s.below ≠ []) (i stop : Nat)
    (closure : Closure) : ((s.flushTo g t i).pop stop closure).Routed g t where
  retold := pop_flushTo_retold h.retold
  routes := pop_routes (flushTo_routes h.routes h.parted h.top_mode i) stop closure
  parted := pop_parted (by rwa [flushTo_below]) stop closure

theorem closeInner_routed {i levels : Nat} (h : s.Routed g t) (hlevels : levels ≤ s.below.length) :
    (s.closeInner g t i levels).Routed g t := by
  induction levels generalizing s with
  | zero => exact h
  | succ levels ih =>
    refine ih (pop_flushTo_routed h (List.ne_nil_of_length_pos (by omega)) i i .withParent) ?_
    rw [pop_below, flushTo_below, List.length_tail]
    omega

theorem cascade_routed {n : Nat} {closed : Mode} (h : s.Routed g t) (hn : n ≤ s.below.length) :
    (s.cascade g t n closed).Routed g t := by
  induction n generalizing s closed with
  | zero => exact h
  | succ n ih =>
    have hb : s.below ≠ [] := List.ne_nil_of_length_pos (by omega)
    rw [cascade]
    dsimp only
    split
    · rw [flushTo_position, pop?_eq_some (by rwa [flushTo_below])]
      refine ih (pop_flushTo_routed h hb _ _ _) ?_
      rw [pop_below, flushTo_below, List.length_tail]
      omega
    · exact h

theorem closeEnded_routed {span : Span} (h : s.Routed g t) (hb : s.below ≠ []) :
    (s.closeEnded g t span).Routed g t := by
  have hpop (i : Nat) := pop_flushTo_routed h hb i i .matched
  have hflushed := flushTo_routes h.routes h.parted h.top_mode span.start
  refine ⟨closeEnded_retold hb trivial h.retold, ?_, ?_⟩
  · unfold closeEnded
    dsimp only
    split
    · exact (hpop span.start).routes
    split
    · split
      · exact (hpop span.start).routes.delimiter span _
      · exact (hpop span.start).routes
    · split
      · exact pop_routes (s := { s.flushTo g t span.start with log := _ })
          (hflushed.delimiter span _) span.stop .matched
      · exact (hpop span.stop).routes
  · unfold closeEnded
    dsimp only
    split
    · exact (hpop span.start).parted
    split
    · split
      · exact (hpop span.start).parted.delimiter span _
      · exact (hpop span.start).parted
    · split
      · exact pop_parted (s := { s.flushTo g t span.start with log := _ })
          (by rwa [flushTo_below]) span.stop .matched
      · exact (hpop span.stop).parted

theorem finish_routed {level : Nat} {span : Span} (h : s.Routed g t)
    (hlevel : level < s.below.length) : (s.finish g t level span).Routed g t := by
  rw [finish_eq]
  refine cascade_routed (closeEnded_routed (closeInner_routed h hlevel.le) ?_) (Nat.le_refl _)
  rw [closeInner_below]
  exact List.ne_nil_of_length_pos (by rw [List.length_drop]; omega)

/-- A region opens behind the text that has waited, and parts it from what comes. -/
theorem opening_routed {id : Nat} {finish : Option Matcher} {span : Span}
    (hid : (g.mode id).id = id) (h : s.Routed g t) :
    (s.opening g t id finish span).Routed g t := by
  have hevents : (s.noteBegin g id span).log.events = s.log.events := by
    rw [noteBegin_log, Log.scoreMode_events]
  have hflushed (i : Nat) : Routes g t ((s.noteBegin g id span).flushTo g t i).log.events := by
    refine flushTo_routes (by rw [hevents]; exact h.routes) (h.parted.congr hevents) ?_ i
    rw [noteBegin_top, hevents]
    exact h.top_mode
  have hlog : (s.opening g t id finish span).log =
    (enter g t (g.mode id) finish span (s.noteBegin g id span)).log := rfl
  refine ⟨opening_retold hid trivial h.retold, ?_, ?_⟩
  · rw [hlog]
    unfold enter
    dsimp only
    split
    · split
      · exact ((hflushed span.start).delimiter span _).part rfl
      · exact Routes.delimiter (l := ((s.noteBegin g id span).flushTo g t span.start).log.event _)
          ((hflushed span.start).part rfl) span _
    · exact (hflushed _).part rfl
  · rw [hlog]
    unfold enter
    dsimp only
    split
    · split
      · exact Log.parted_event rfl
      · exact (Log.parted_event rfl).delimiter span _
    · exact Log.parted_event rfl

theorem begin_routed {id index : Nat} {span : Span} (hid : (g.mode id).id = id)
    (hbegin : s.begin g t id index span = .ok s') (h : s.Routed g t) : s'.Routed g t := by
  obtain ⟨-, rfl⟩ | ⟨v, finish, -, -, rfl | rfl⟩ := begin_cases hbegin
  · exact h
  · have hopen : (s.opening g t id finish span).Routed g t := opening_routed hid h
    refine cascade_routed (pop_flushTo_routed hopen ?_ _ _ _) (Nat.le_refl _)
    exact (top_region (opening_opened hid)).1
  · exact opening_routed hid h

theorem initial_routed (g : Grammar) (t : Text) : (initial g).Routed g t :=
  ⟨initial_retold g t _ _, .start, nofun⟩

/-- Looking for the next step writes nothing. -/
theorem Routed.nextStep (h : s.Routed g t) : (nextStep g t s).2.Routed g t := by
  have hlog : (Scan.nextStep g t s).2.log = s.log := by
    have hforget := congrArg State.log (nextStep_forget (g := g) (t := t) (s := s))
    exact hforget
  exact ⟨h.retold.nextStep, hlog ▸ h.routes, hlog ▸ h.parted⟩

end State

section trace
variable {g : Grammar} {t : Text} {steps : List Step} {s s₁ : State}

/-- A region that ends is not the text outside every region. -/
theorem Trace.level_lt (hg : g.Numbered) (h : Trace g t steps s) {level : Nat} {span : Span}
    (hnext : nextStep g t s = (.finish level span, s₁)) : level < s₁.below.length := by
  have hlevel := (h.rooted hg).level_lt (nextStep_finish_mem hg h.reachable hnext)
  have hlength : s₁.finishes.length = s.finishes.length := by
    rw [← nextStep_finishes (g := g) (t := t) (s := s), hnext]
  rw [length_finishes, length_finishes, State.frames, State.frames, List.length_cons,
    List.length_cons] at hlength
  omega

theorem Trace.routed (hg : g.Numbered) (h : Trace g t steps s) : s.Routed g t := by
  induction h with
  | start => exact State.initial_routed g t
  | @step steps s s' step h hstep ih =>
    have hnext' := ih.nextStep
    cases hstep with
    | begin hnext hbegin =>
      have hid := (Takes.beginMoves hg h.reachable (.begin hnext hbegin)).mode
      rw [hnext] at hnext'
      exact State.begin_routed (hg.mode_id hid) hbegin hnext'
    | finish hnext =>
      have hlevel := h.level_lt hg hnext
      rw [hnext] at hnext'
      exact State.finish_routed hnext' hlevel

end trace
end Scan
end Tinct
