import Tinct.Proofs.Scan.Routing

/-!
# Scopes under other names

No decision of a scan depends on what scopes are called. Text joins text of the same scope, but no
text is written behind other text, so that even scopes that get one name stay apart:

* `Tokenization.rename`, `Mode.rename`, `State.rename`: the same with other scopes;
* `Grammar.Renames`: the modes of one grammar that a scan can come to, and those of another that are
  the same with other scopes;
* `Log.rename_text`, `State.rename_begin`, `State.rename_finish`, `rename_nextStep`: each move of a
  scan with the one is that with the other;
* `Grammar.Renames.tokenize`: so is the whole scan.
-/

namespace Tinct

section rename
variable (ρ : Scope → Scope)

def Token.rename (tok : Token) : Token := { tok with scope := tok.scope.map ρ }

def Event.rename : Event → Event
  | enter mode scope offset => enter mode (scope.map ρ) offset
  | token tok => token (tok.rename ρ)
  | exit mode scope span closure => exit mode (scope.map ρ) span closure

def Tokenization.rename (r : Tokenization) : Tokenization :=
  { r with events := r.events.map (·.rename ρ) }

def Keyword.rename (k : Keyword) : Keyword := { k with category := ρ k.category }

def KeywordTable.rename (table : KeywordTable) : KeywordTable :=
  { table with entries := table.entries.map fun e => (e.1, e.2.rename ρ) }

def Mode.rename (m : Mode) : Mode :=
  { m with
    scope := m.scope.map ρ
    beginScope := m.beginScope.map ρ
    endScope := m.endScope.map ρ
    keywords := m.keywords.map (·.rename ρ) }

namespace Scan

def Log.rename (l : Log) : Log := { l with events := l.events.map (·.rename ρ) }

def Frame.rename (f : Frame) : Frame :=
  { f with mode := f.mode.rename ρ, textScope := f.textScope.map ρ }

def State.rename (s : State) : State :=
  { s with top := s.top.rename ρ, below := s.below.map (·.rename ρ), log := s.log.rename ρ }

end Scan

variable {ρ}

theorem Event.rename_mapOffsets (f : Nat → Nat) (e : Event) :
    (e.rename ρ).mapOffsets f = (e.mapOffsets f).rename ρ := by
  cases e <;> rfl

theorem Entries.get?_map {α β : Type} (f : α → β) (es : Entries α) (key : String) :
    Entries.get? (es.map fun e => (e.1, f e.2)) key = (es.get? key).map f := by
  induction es with
  | nil => rfl
  | cons e es ih =>
    rw [List.map_cons, Entries.get?_cons, Entries.get?_cons, ih]
    split <;> rfl

theorem Entries.put_map {α β : Type} (f : α → β) (es : Entries α) (key : String) (value : α) :
    Entries.put key (f value) (es.map fun e => (e.1, f e.2)) =
      (es.put key value).map fun e => (e.1, f e.2) := by
  induction es with
  | nil => rfl
  | cons e es ih =>
    rw [List.map_cons, Entries.put, Entries.put, ih]
    split <;> rfl

@[simp] theorem KeywordTable.rename_lookup (table : KeywordTable) (word : String) :
    (table.rename ρ).lookup word = (table.lookup word).map (·.rename ρ) :=
  Entries.get?_map (Keyword.rename ρ) table.entries (table.fold word)

@[simp] theorem KeywordTable.rename_isEmpty (table : KeywordTable) :
    (table.rename ρ).isEmpty = table.isEmpty := by
  rw [isEmpty, rename, List.isEmpty_map, isEmpty]

end rename

/-! ### The same names -/

theorem KeywordTable.rename_self (table : KeywordTable) : table.rename (fun s => s) = table := by
  have hentries : (table.entries.map fun e => (e.1, e.2.rename fun s => s)) = table.entries :=
    List.map_id' table.entries
  rw [rename, hentries]

theorem Mode.rename_self (m : Mode) : m.rename (fun s => s) = m := by
  rw [rename, funext KeywordTable.rename_self]
  simp only [Option.map_id']

theorem Event.rename_self (e : Event) : e.rename (fun s => s) = e := by
  cases e <;> simp only [rename, Token.rename, Option.map_id']

theorem Tokenization.rename_self (r : Tokenization) : r.rename (fun s => s) = r := by
  rw [rename, funext Event.rename_self, List.map_id']

/-- The modes of `g` that a scan can come to, which are those in `known`, are those of `g'` with
other scopes. -/
structure Grammar.Renames (ρ : Scope → Scope) (known : Nat → Prop) (g g' : Grammar) : Prop where
  name : g'.name = g.name
  root : known 0
  mode : ∀ id, known id → g'.mode id = (g.mode id).rename ρ
  contains : ∀ id, known id → ∀ id' ∈ (g.mode id).contains, known id'
  keywords : g'.keywords = g.keywords.rename ρ

theorem Grammar.Renames.effectiveKeywords {ρ : Scope → Scope} {known : Nat → Prop} {g g' : Grammar}
    (h : g.Renames ρ known g') (m : Mode) :
    g'.effectiveKeywords (m.rename ρ) =
      ((g.effectiveKeywords m).1.rename ρ, (g.effectiveKeywords m).2) := by
  have htable : (m.keywords.map (·.rename ρ)).getD (g.keywords.rename ρ) =
      (m.keywords.getD g.keywords).rename ρ := by
    cases m.keywords <;> rfl
  simp only [Grammar.effectiveKeywords, h.keywords, Mode.rename, htable]
  rfl

namespace Scan
variable {ρ : Scope → Scope} {known : Nat → Prop} {g g' : Grammar} {t : Text}

/-! ## What is written -/

namespace Log
variable {l : Log}

theorem rename_scoreMode (l : Log) (m : Mode) :
    (l.rename ρ).scoreMode (m.rename ρ) = (l.scoreMode m).rename ρ := by
  unfold scoreMode
  show (if l.entered.contains m.id then _ else _) = _
  split <;> rfl

theorem Settled.rename (h : l.Settled) : (l.rename ρ).Settled := by
  intro tok htok
  rw [Log.rename, List.head?_map, Option.map_eq_some_iff] at htok
  obtain ⟨e, he, htok⟩ := htok
  cases e with
  | token tok' =>
    cases htok
    exact h tok' he
  | enter mode scope offset => cases htok
  | exit mode scope span closure => cases htok

/-- Where no text could be joined, a token is written as it is. -/
theorem rename_token (tok : Token) (h : l.Settled ∨ tok.kind ≠ .text) :
    (l.rename ρ).token (tok.rename ρ) = (l.token tok).rename ρ := by
  have htoken : l.token tok = if tok.span.isEmpty then l else l.event (.token tok) :=
    h.elim (·.token_eq tok) (token_of_kind_ne · l)
  have htoken' : (l.rename ρ).token (tok.rename ρ) =
      if tok.span.isEmpty then l.rename ρ else (l.rename ρ).event (.token (tok.rename ρ)) :=
    h.elim (·.rename.token_eq (tok.rename ρ)) (@token_of_kind_ne (tok.rename ρ) · _)
  rw [htoken, htoken']
  split <;> rfl

theorem rename_raw (l : Log) (span : Span) : (l.rename ρ).raw span = (l.raw span).rename ρ := by
  unfold raw
  split <;> rfl

theorem rename_delimiter (l : Log) (span : Span) (scope : Scope) :
    (l.rename ρ).delimiter span (ρ scope) = (l.delimiter span scope).rename ρ :=
  rename_token ⟨span, some scope, .delimiter⟩ (.inr nofun)

theorem rename_keywords {table : KeywordTable} {scope : Option Scope} {start stop i : Nat}
    {hits : List Span} (h : l.Settled) :
    keywords (table.rename ρ) (scope.map ρ) t start stop i hits (l.rename ρ) =
      (keywords table scope t start stop i hits l).rename ρ := by
  induction hits generalizing i l with
  | nil => exact rename_token ⟨⟨i, stop⟩, scope, .text⟩ (.inl h)
  | cons hit hits ih =>
    rw [keywords, keywords]
    dsimp only
    rw [KeywordTable.rename_lookup]
    by_cases hempty : hit.isEmpty = true
    · rw [if_pos hempty, if_pos hempty]
      exact ih h
    rw [if_neg hempty, if_neg hempty]
    cases table.lookup (t.extract ⟨start + hit.start, start + hit.stop⟩) with
    | none => exact ih h
    | some k =>
      have htext : (l.rename ρ).token ⟨⟨i, start + hit.start⟩, scope.map ρ, .text⟩ =
          (l.token ⟨⟨i, start + hit.start⟩, scope, .text⟩).rename ρ :=
        rename_token ⟨⟨i, start + hit.start⟩, scope, .text⟩ (.inl h)
      have hword (l : Log) (scope : Option Scope) :
          l.token ⟨⟨start + hit.start, start + hit.stop⟩, scope, .keyword⟩ =
            l.event (.token ⟨⟨start + hit.start, start + hit.stop⟩, scope, .keyword⟩) := by
        rw [token_of_kind_ne (by simp), if_neg]
        exact fun heq => hempty (beq_iff_eq.mpr (Nat.add_left_cancel (eq_of_beq heq)))
      dsimp only [Option.map_some, Keyword.rename]
      rw [htext, hword, hword]
      exact ih (settled_keyword _ _ k)

end Log

theorem Log.rename_text (hg : g.Renames ρ known g') {l : Log} (h : l.Settled) (m : Mode)
    (scope : Option Scope) (span : Span) :
    (l.rename ρ).text g' (m.rename ρ) (scope.map ρ) t span =
      (l.text g m scope t span).rename ρ := by
  unfold text
  rw [hg.effectiveKeywords]
  dsimp only
  rw [KeywordTable.rename_isEmpty]
  by_cases hempty : span.isEmpty = true
  · rw [if_pos hempty, if_pos hempty]
  · rw [if_neg hempty, if_neg hempty]
    exact rename_keywords h

/-! ## What the moves do -/

namespace State
variable {s s' : State}

theorem rename_log (s : State) : (s.rename ρ).log = s.log.rename ρ := rfl

theorem rename_position (s : State) : (s.rename ρ).position = s.position := rfl

theorem rename_flushTo (hg : g.Renames ρ known g') (h : s.log.Settled) (i : Nat) :
    (s.rename ρ).flushTo g' t i = (s.flushTo g t i).rename ρ := by
  unfold flushTo
  by_cases hi : i ≤ s.flushed
  · rw [if_pos hi, if_pos (show i ≤ (s.rename ρ).flushed from hi)]
  · rw [if_neg hi, if_neg (show ¬ i ≤ (s.rename ρ).flushed from hi)]
    have hlog := Log.rename_text hg (t := t) h s.top.mode s.top.textScope ⟨s.flushed, i⟩
    dsimp only [rename, Frame.rename]
    rw [hlog]

theorem rename_push (m : Mode) (finish : Option Matcher) (start : Nat) (s : State) :
    (s.rename ρ).push (m.rename ρ) finish start = (s.push m finish start).rename ρ := by
  have hscope : (m.scope.map ρ).or (s.top.textScope.map ρ) =
      (m.scope.or s.top.textScope).map ρ := by
    cases m.scope <;> rfl
  dsimp only [push, rename, Frame.rename, Mode.rename]
  rw [hscope]
  rfl

theorem rename_pop? (stop : Nat) (closure : Closure) (s : State) :
    (s.rename ρ).pop? stop closure = (s.pop? stop closure).map (·.rename ρ) := by
  obtain ⟨top, below, position, flushed, log, grammarIllegal, emptyBegins⟩ := s
  cases below <;> rfl

theorem rename_pop (stop : Nat) (closure : Closure) (s : State) :
    (s.rename ρ).pop stop closure = (s.pop stop closure).rename ρ := by
  rw [pop, pop, rename_pop?]
  cases s.pop? stop closure <;> rfl

theorem rename_popAll (stop n : Nat) (closure : Closure) (s : State) :
    (s.rename ρ).popAll stop closure n = (s.popAll stop closure n).rename ρ := by
  induction n generalizing s with
  | zero => rfl
  | succ n ih => rw [popAll, rename_pop, ih, popAll]

theorem rename_below_length (s : State) : (s.rename ρ).below.length = s.below.length :=
  List.length_map _

theorem rename_cascade (hg : g.Renames ρ known g') {n : Nat} (closed : Mode) (h : s.log.Parted) :
    (s.rename ρ).cascade g' t n (closed.rename ρ) = (s.cascade g t n closed).rename ρ := by
  induction n generalizing s closed with
  | zero => rfl
  | succ n ih =>
    rw [cascade, cascade]
    dsimp only
    by_cases hflag : closed.flags.endsParent = true
    · rw [if_pos hflag, if_pos (show (closed.rename ρ).flags.endsParent = true from hflag),
        rename_position, rename_flushTo hg h.settled, rename_position, rename_pop?]
      cases hpop : (s.flushTo g t s.position).pop? (s.flushTo g t s.position).position .byChild with
      | none => rfl
      | some s' =>
        refine ih s.top.mode ?_
        have hb : (s.flushTo g t s.position).below ≠ [] := fun hnil => by
          rw [pop?_eq_none_iff.mpr hnil] at hpop
          cases hpop
        have hparted := pop_parted hb (s.flushTo g t s.position).position .byChild
        rwa [pop, hpop] at hparted
    · rw [if_neg hflag, if_neg (show ¬ (closed.rename ρ).flags.endsParent = true from hflag)]

theorem rename_closeInner (hg : g.Renames ρ known g') {i levels : Nat} (h : s.log.Parted)
    (hlevels : levels ≤ s.below.length) :
    (s.rename ρ).closeInner g' t i levels = (s.closeInner g t i levels).rename ρ := by
  induction levels generalizing s with
  | zero => rfl
  | succ levels ih =>
    have hb : (s.flushTo g t i).below ≠ [] := by
      rw [flushTo_below]
      exact List.ne_nil_of_length_pos (by omega)
    rw [closeInner, closeInner, rename_flushTo hg h.settled, rename_pop]
    refine ih (pop_parted hb i .withParent) ?_
    rw [pop_below, flushTo_below, List.length_tail]
    omega

theorem rename_log_delimiter (span : Span) (scope : Scope) (s : State) :
    { s.rename ρ with log := (s.rename ρ).log.delimiter span (ρ scope) } =
      ({ s with log := s.log.delimiter span scope } : State).rename ρ := by
  rw [rename_log, Log.rename_delimiter]
  rfl

theorem rename_closeEnded (hg : g.Renames ρ known g') (h : s.log.Parted) (span : Span) :
    (s.rename ρ).closeEnded g' t span = (s.closeEnded g t span).rename ρ := by
  have hpop (i : Nat) : ((s.rename ρ).flushTo g' t i).pop i .matched =
      ((s.flushTo g t i).pop i .matched).rename ρ := by
    rw [rename_flushTo hg h.settled, rename_pop]
  have hflags : (s.rename ρ).top.mode.flags = s.top.mode.flags := rfl
  have hend : (s.rename ρ).top.mode.endScope = s.top.mode.endScope.map ρ := rfl
  unfold closeEnded
  dsimp only
  rw [hflags, hend]
  by_cases hreturn : s.top.mode.flags.returnEnd = true
  · rw [if_pos hreturn, if_pos hreturn, hpop]
    rfl
  rw [if_neg hreturn, if_neg hreturn]
  by_cases hexclude : s.top.mode.flags.excludeEnd = true
  · rw [if_pos hexclude, if_pos hexclude, hpop]
    cases s.top.mode.endScope with
    | none => rfl
    | some scope =>
      dsimp only [Option.map_some]
      rw [rename_log, Log.rename_delimiter]
      rfl
  · rw [if_neg hexclude, if_neg hexclude]
    cases s.top.mode.endScope with
    | none =>
      dsimp only [Option.map_none]
      rw [hpop]
      rfl
    | some scope =>
      dsimp only [Option.map_some]
      rw [rename_flushTo hg h.settled, rename_log_delimiter, rename_pop]
      rfl

/-! ### Begins -/

theorem rename_log_scoreMode (m : Mode) (s : State) :
    { s.rename ρ with log := (s.rename ρ).log.scoreMode (m.rename ρ) } =
      ({ s with log := s.log.scoreMode m } : State).rename ρ := by
  rw [rename_log, Log.rename_scoreMode]
  rfl

theorem rename_noteBegin (hg : g.Renames ρ known g') {id : Nat} (hid : known id) (span : Span)
    (s : State) :
    (s.rename ρ).noteBegin g' id span = (s.noteBegin g id span).rename ρ := by
  unfold noteBegin
  dsimp only
  rw [hg.mode id hid]
  by_cases hempty : span.isEmpty = true
  · rw [if_pos hempty, if_pos hempty]
    exact rename_log_scoreMode (g.mode id)
      { s with emptyBegins := s.emptyBegins.record span.start id }
  · rw [if_neg hempty, if_neg hempty]
    exact rename_log_scoreMode (g.mode id) s

theorem rename_enter (hg : g.Renames ρ known g') (h : s.log.Settled) (m : Mode)
    (finish : Option Matcher) (span : Span) :
    (s.rename ρ).enter g' t (m.rename ρ) finish span = (s.enter g t m finish span).rename ρ := by
  have hflags : (m.rename ρ).flags = m.flags := rfl
  have hbegin : (m.rename ρ).beginScope = m.beginScope.map ρ := rfl
  unfold enter
  dsimp only
  rw [hflags, hbegin]
  cases m.beginScope with
  | none =>
    dsimp only [Option.map_none]
    rw [rename_flushTo hg h, rename_push]
    rfl
  | some scope =>
    dsimp only [Option.map_some]
    rw [rename_flushTo hg h]
    cases m.flags.excludeBegin with
    | true =>
      simp only [if_true]
      rw [rename_log_delimiter, rename_push]
      rfl
    | false =>
      simp only [Bool.false_eq_true, if_false]
      rw [rename_push, rename_log, Log.rename_delimiter]
      rfl

theorem noteBegin_parted (h : s.log.Parted) (id : Nat) (span : Span) :
    (s.noteBegin g id span).log.Parted :=
  h.congr (by rw [noteBegin_log, Log.scoreMode_events])

theorem rename_opening (hg : g.Renames ρ known g') (h : s.log.Parted) {id : Nat} (hid : known id)
    (finish : Option Matcher) (span : Span) :
    (s.rename ρ).opening g' t id finish span = (s.opening g t id finish span).rename ρ := by
  rw [opening, hg.mode id hid, rename_noteBegin hg hid,
    rename_enter hg (noteBegin_parted h id span).settled]
  rfl

theorem rename_closeOpened (hg : g.Renames ρ known g') (h : s.log.Parted) (hb : s.below ≠ [])
    {id : Nat} (hid : known id) (span : Span) :
    (s.rename ρ).closeOpened g' t id span = (s.closeOpened g t id span).rename ρ := by
  have hb' : (s.flushTo g t span.stop).below ≠ [] := by rwa [flushTo_below]
  have hparted := pop_parted hb' span.stop .matched
  rw [closeOpened, closeOpened, hg.mode id hid]
  rw [rename_flushTo hg h.settled, rename_pop, rename_below_length, rename_cascade hg _ hparted]

theorem rename_begin (hg : g.Renames ρ known g') (h : s.Routed g t) {id : Nat} (hid : known id)
    (hplace : (g.mode id).id = id) (index : Nat) (span : Span) :
    (s.rename ρ).begin g' t id index span = (s.begin g t id index span).map (·.rename ρ) := by
  have hvariants : ((g.mode id).rename ρ).variants = (g.mode id).variants := rfl
  rw [begin_eq, begin_eq, hg.mode id hid, hvariants]
  cases (g.mode id).variants[index]? with
  | none => rfl
  | some v =>
    dsimp only
    cases endMatcher t v span with
    | error e => rfl
    | ok finish =>
      have hopening := rename_opening (t := t) hg h.parted hid finish span
      refine congrArg Except.ok ?_
      unfold beginWith
      cases v.finish with
      | immediate =>
        have hopened : (s.opening g t id finish span).Routed g t := opening_routed hplace h
        have hb : (s.opening g t id finish span).below ≠ [] :=
          (top_region (opening_opened hplace)).1
        dsimp only
        rw [hopening, rename_closeOpened hg hopened.parted hb hid]
      | pattern p => exact hopening
      | unbounded => exact hopening

theorem rename_finish (hg : g.Renames ρ known g') (h : s.Routed g t) {level : Nat}
    (hlevel : level < s.below.length) (span : Span) :
    (s.rename ρ).finish g' t level span = (s.finish g t level span).rename ρ := by
  have hinner : (s.closeInner g t span.start level).Routed g t := closeInner_routed h hlevel.le
  have hb : (s.closeInner g t span.start level).below ≠ [] := by
    rw [closeInner_below]
    exact List.ne_nil_of_length_pos (by rw [List.length_drop]; omega)
  have hended : ((s.closeInner g t span.start level).closeEnded g t span).Routed g t :=
    closeEnded_routed hinner hb
  rw [finish_eq, finish_eq]
  dsimp only
  rw [rename_closeInner hg h.parted hlevel.le, rename_closeEnded hg hinner.parted,
    rename_below_length]
  exact rename_cascade hg _ hended.parted

end State

/-! ## What comes next -/

section next
variable {s : State}

theorem rename_askEnd (i : Nat) (f : Frame) :
    (f.rename ρ).askEnd t i = ((f.askEnd t i).1, (f.askEnd t i).2.rename ρ) := by
  obtain ⟨mode, finish, start, scope, endCache, illegalCache, beginCaches⟩ := f
  cases finish <;> rfl

theorem rename_findEnd (i level : Nat) (best : Option (Nat × Span)) (fs : List Frame) :
    findEnd t i level best (fs.map (·.rename ρ)) =
      ((findEnd t i level best fs).1, (findEnd t i level best fs).2.map (·.rename ρ)) := by
  induction fs generalizing level best with
  | nil => rfl
  | cons f fs ih =>
    have hflags : (f.rename ρ).mode.flags = f.mode.flags := rfl
    rw [List.map_cons, findEnd_cons, findEnd_cons, rename_askEnd, hflags]
    dsimp only
    cases f.mode.flags.endsWithParent with
    | true =>
      simp only [if_true]
      rw [ih]
      rfl
    | false => rfl

theorem rename_askEnds (s : State) :
    (s.rename ρ).askEnds t = ((s.askEnds t).1, (s.askEnds t).2.rename ρ) := by
  have hframes : (s.rename ρ).frames = s.frames.map (·.rename ρ) := rfl
  obtain ⟨top, below, hend, hs⟩ := s.askEnds_cases t
  rw [State.askEnds, hframes, State.rename_position, rename_findEnd, hend, hs]
  rfl

theorem rename_findIllegal (hg : g.Renames ρ known g') (s : State) :
    findIllegal g' t (s.rename ρ) = ((findIllegal g t s).1, (findIllegal g t s).2.rename ρ) := by
  have hillegal : g'.illegal = g.illegal := by
    rw [Grammar.illegal, Grammar.root, hg.mode 0 hg.root]
    rfl
  have haround : around g' (s.rename ρ).top.mode = around g s.top.mode := by
    rw [around, around, hillegal]
    rfl
  rw [findIllegal_eq, findIllegal_eq, haround]
  rfl

theorem rename_candidates (hg : g.Renames ρ known g') {m : Mode}
    (hm : ∀ id ∈ m.contains, known id) : candidates g' (m.rename ρ) = candidates g m := by
  have hcontains : (m.rename ρ).contains = m.contains := rfl
  rw [candidates, candidates, hcontains]
  refine List.flatMap_congr fun id hid => ?_
  rw [hg.mode id (hm id hid)]
  rfl

theorem rename_askBegins (hg : g.Renames ρ known g') (hs : ∀ id ∈ s.top.mode.contains, known id) :
    (s.rename ρ).askBegins g' t = ((s.askBegins g t).1, (s.askBegins g t).2.rename ρ) := by
  have hcandidates : candidates g' (s.rename ρ).top.mode = candidates g s.top.mode :=
    rename_candidates hg hs
  rw [State.askBegins, hcandidates]
  rfl

/-- What comes next does not depend on scopes. -/
theorem rename_nextStep (hg : g.Renames ρ known g') (hs : ∀ id ∈ s.top.mode.contains, known id) :
    nextStep g' t (s.rename ρ) = ((nextStep g t s).1, (nextStep g t s).2.rename ρ) := by
  have hforget : (findIllegal g t (s.askEnds t).2).2.forget = s.forget :=
    findIllegal_forget.trans State.askEnds_forget
  have hmode : (findIllegal g t (s.askEnds t).2).2.top.mode = s.top.mode :=
    congrArg (·.top.mode) hforget
  rw [nextStep_eq, nextStep_eq, rename_askEnds]
  dsimp only
  rw [rename_findIllegal hg]
  dsimp only
  rw [rename_askBegins hg (by rwa [hmode])]
  rfl

end next

/-! ## The whole scan -/

section trace
variable {steps : List Step} {step : Step} {s s' : State} {policy : IllegalPolicy}

/-- The frames of a state have modes that a scan can come to. -/
def State.Knows (known : Nat → Prop) (g : Grammar) (s : State) : Prop :=
  ∀ f ∈ s.frames, ∃ id, known id ∧ f.mode = g.mode id

theorem State.Knows.contains (hg : g.Renames ρ known g') (h : s.Knows known g) :
    ∀ id ∈ s.top.mode.contains, known id := by
  obtain ⟨id, hid, hmode⟩ := h s.top List.mem_cons_self
  rw [hmode]
  exact hg.contains id hid

theorem State.Knows.nextStep (h : s.Knows known g) : (nextStep g t s).2.Knows known g := by
  intro f hf
  have hforget : (Scan.nextStep g t s).2.frames.map Frame.forget = s.frames.map Frame.forget := by
    rw [← State.forget_frames, ← State.forget_frames, nextStep_forget]
  obtain ⟨f', hf', heq⟩ := List.mem_map.mp (hforget ▸ List.mem_map_of_mem hf)
  obtain ⟨id, hid, hmode⟩ := h f' hf'
  exact ⟨id, hid, (Frame.mk.inj heq).1 ▸ hmode⟩

/-- What begins next is a mode that the innermost one contains. -/
theorem nextStep_begin_contains (hn : g.Numbered) (hs : Reachable g t s) {id index : Nat}
    {span : Span} (hnext : nextStep g t s = (.begin id index span, s')) :
    id ∈ s.top.mode.contains := by
  obtain ⟨⟨id₁, index₁, m⟩, hc, hfound⟩ := List.mem_filterMap.mp (nextStep_begin_mem hn hs hnext)
  obtain ⟨_, -, heq⟩ := Option.map_eq_some_iff.mp hfound
  obtain ⟨id₂, hid, hv⟩ := List.mem_flatMap.mp hc
  obtain ⟨_, -, heq'⟩ := List.mem_map.mp hv
  cases heq
  cases heq'
  exact hid

theorem Trace.knows (hg : g.Renames ρ known g') (hn : g.Numbered) (h : Trace g t steps s) :
    s.Knows known g := by
  induction h with
  | start =>
    intro f hf
    obtain rfl := List.mem_singleton.mp hf
    exact ⟨0, hg.root, rfl⟩
  | @step steps s s' step h hstep ih =>
    have hnext' := ih.nextStep (t := t)
    cases hstep with
    | begin hnext hbegin =>
      have hid := ih.contains hg _ (nextStep_begin_contains hn h.reachable hnext)
      rw [hnext] at hnext'
      exact State.begin_forall_frames hbegin hnext' fun _ _ _ _ _ _ => ⟨_, hid, rfl⟩
    | finish hnext =>
      rw [hnext] at hnext'
      exact State.finish_forall_frames hnext'

/-- The begin that comes next does the same. -/
theorem Trace.rename_begin (hg : g.Renames ρ known g') (hn : g.Numbered) (h : Trace g t steps s)
    {id index : Nat} {span : Span} (hnext : nextStep g t s = (.begin id index span, s')) :
    (s'.rename ρ).begin g' t id index span = (s'.begin g t id index span).map (·.rename ρ) := by
  have hrouted := (h.routed hn).nextStep
  rw [hnext] at hrouted
  have hid := (h.knows hg hn).contains hg _ (nextStep_begin_contains hn h.reachable hnext)
  have hsize := (mem_begins (nextStep_begin_mem hn h.reachable hnext)).1
  exact State.rename_begin hg hrouted hid (hn.mode_id hsize) index span

theorem Takes.rename (hg : g.Renames ρ known g') (hn : g.Numbered) (h : Trace g t steps s)
    (hstep : Takes g t step s s') : Takes g' t step (s.rename ρ) (s'.rename ρ) := by
  have hnext' := rename_nextStep (t := t) hg ((h.knows hg hn).contains hg)
  cases hstep with
  | begin hnext hbegin =>
    rw [hnext] at hnext'
    refine .begin hnext' ?_
    rw [h.rename_begin hg hn hnext, hbegin]
    rfl
  | finish hnext =>
    have hlevel := h.level_lt hn hnext
    have hrouted := (h.routed hn).nextStep
    rw [hnext] at hnext' hrouted
    rw [← State.rename_finish hg hrouted hlevel]
    exact .finish hnext'

theorem Trace.rename (hg : g.Renames ρ known g') (hn : g.Numbered) (h : Trace g t steps s) :
    Trace g' t steps (s.rename ρ) := by
  induction h with
  | start =>
    have hinitial : State.initial g' = (State.initial g).rename ρ := by
      rw [State.initial, Grammar.root, hg.mode 0 hg.root]
      rfl
    rw [← hinitial]
    exact .start
  | step h hstep ih => exact ih.step (Takes.rename hg hn h hstep)

theorem State.rename_result (s : State) (illegal : Option Nat) :
    (s.rename ρ).result t illegal = (s.result t illegal).rename ρ := by
  have hmap (f : Nat → Nat) : (s.log.events.map (·.rename ρ)).map (·.mapOffsets f) =
      (s.log.events.map (·.mapOffsets f)).map (·.rename ρ) := by
    rw [List.map_map, List.map_map]
    exact List.map_congr_left fun e _ => e.rename_mapOffsets f
  simp only [State.result, State.rename_log, Log.rename, Tokenization.rename, hmap,
    List.map_reverse]

/-- A scan with other scopes ends in the same way. -/
theorem Ends.rename (hg : g.Renames ρ known g') (hn : g.Numbered) (h : Trace g t steps s)
    {r : Except Error Tokenization} (hr : Ends g t policy s r) :
    Ends g' t policy (s.rename ρ) (r.map (·.rename ρ)) := by
  have hnext' := rename_nextStep (t := t) hg ((h.knows hg hn).contains hg)
  have hrouted := (h.routed hn).nextStep
  have hall {s₁ : State} (hs₁ : s₁.Routed g t) (i : Nat) (closure : Closure) :
      ((s₁.rename ρ).flushTo g' t i).popAll i closure (s₁.rename ρ).below.length =
        ((s₁.flushTo g t i).popAll i closure s₁.below.length).rename ρ := by
    rw [State.rename_below_length, State.rename_flushTo hg hs₁.parted.settled, State.rename_popAll]
  cases hr with
  | @done s₁ hnext =>
    rw [hnext] at hnext' hrouted
    have hinput : (s₁.rename ρ).finishInput g' t = (s₁.finishInput g t).rename ρ :=
      hall hrouted t.size .endOfInput
    show Ends g' t policy _ (.ok ((State.result t _ none).rename ρ))
    rw [← State.rename_result, ← hinput]
    exact .done hnext'
  | @recovered s₁ i hnext hpolicy =>
    rw [hnext] at hnext' hrouted
    have hrecover : (s₁.rename ρ).recover g' t i = (s₁.recover g t i).rename ρ := by
      rw [State.recover, hall hrouted, State.rename_log, Log.rename_raw]
      rfl
    show Ends g' t policy _ (.ok ((State.result t _ (some i)).rename ρ))
    rw [← State.rename_result, ← hrecover]
    exact .recovered hnext' hpolicy
  | aborted hnext hpolicy =>
    rw [hnext] at hnext'
    rw [← hg.name]
    exact .aborted hnext' hpolicy
  | @failed s₁ id index span e hnext hbegin =>
    have hbegin' := h.rename_begin hg hn hnext
    rw [hbegin] at hbegin'
    rw [hnext] at hnext'
    rw [← hg.name]
    exact .failed hnext' hbegin'

end trace
end Scan

/-- A grammar that is the same with other scopes, as far as a scan can come, gives the same results
with other scopes. -/
theorem Grammar.Renames.tokenize {ρ : Scope → Scope} {known : Nat → Prop} {g g' : Grammar}
    (h : g.Renames ρ known g') (hg : g.Numbered) (hg' : g'.Numbered) (policy : IllegalPolicy)
    (source : String) :
    g'.tokenize policy source = (g.tokenize policy source).map (·.rename ρ) := by
  obtain ⟨steps, s, htrace, hends⟩ : ∃ steps s, Scan.Trace g (.ofString source) steps s ∧
      Scan.Ends g (.ofString source) policy s (g.tokenize policy source) :=
    (tokenize_eq_iff hg).mp rfl
  exact (tokenize_eq_iff hg').mpr
    ⟨steps, s.rename ρ, htrace.rename h hg, hends.rename h hg htrace⟩

end Tinct
