import Tinct.Proofs.Scan.Recovery
import Tinct.Proofs.Scan.Routing

/-!
# Stretches of text

Text and keywords between two enters, exits or delimiters have been written in one piece, and the
keywords of the innermost mode are told from the text of that piece alone:

* `IsStretch`: tokens among events that go as far as text and keywords do;
* `Routes.divides`: a stretch of routed events is one piece of text;
* `Divides.map`: a text stays divided where all spans lie at other offsets;
* `Ends.routed`: what a scan ends with is routed, up to the rest behind an illegal sequence;
* `keywords_routed`: each stretch of a tokenization is divided by the keywords in its text.
-/

namespace Tinct

/-- The tokens between `front` and `back` are text and keywords, and the events next to them are
not. -/
structure IsStretch (front : List Event) (toks : List Token) (back : List Event) : Prop where
  plain : ∀ tok ∈ toks, tok.kind ≠ .delimiter
  front : ∀ e ∈ front.getLast?, e.parts = true
  back : ∀ e ∈ back.head?, e.parts = true

/-- Text and keywords part nothing. -/
theorem Event.not_parts {tok : Token} (h : tok.kind ≠ .delimiter) :
    ¬ (Event.token tok).parts = true := fun hparts => h (eq_of_beq hparts)

/-- No text and no keyword stands last in front of what parts it. -/
theorem eq_nil_of_plain {es : List Event} {toks : List Token} (hplain : ∀ tok ∈ toks,
    tok.kind ≠ .delimiter) {more : List Event} (hmore : ∀ e ∈ more, e ∈ toks.map Event.token)
    (hlast : ∀ e ∈ (es ++ more).getLast?, e.parts = true) : more = [] := by
  by_contra hne
  obtain ⟨tok, htok, heq⟩ := List.mem_map.mp (hmore _ (List.getLast_mem hne))
  refine Event.not_parts (hplain tok htok) (hlast _ ?_)
  rw [heq, List.getLast?_append_of_ne_nil _ hne, List.getLast?_eq_some_getLast hne]
  rfl

/-- Where text and keywords go as far back as possible on both sides, they are the same. -/
theorem eq_of_append_eq_append {es front : List Event} {toks toks' : List Token}
    (h : es ++ toks'.map .token = front ++ toks.map .token)
    (hes : ∀ e ∈ es.getLast?, e.parts = true) (hfront : ∀ e ∈ front.getLast?, e.parts = true)
    (hplain : ∀ tok ∈ toks, tok.kind ≠ .delimiter)
    (hplain' : ∀ tok ∈ toks', tok.kind ≠ .delimiter) : es = front ∧ toks' = toks := by
  have hinj : Function.Injective (List.map Event.token) :=
    List.map_injective_iff.mpr fun _ _ => Event.token.inj
  obtain ⟨more, rfl, hmore⟩ | ⟨more, rfl, hmore⟩ := List.append_eq_append_iff.mp h
  · obtain rfl := eq_nil_of_plain hplain' (fun e he => hmore ▸ List.mem_append_left _ he) hfront
    exact ⟨(List.append_nil _).symm, hinj hmore⟩
  · obtain rfl := eq_nil_of_plain hplain (fun e he => hmore ▸ List.mem_append_left _ he) hes
    exact ⟨List.append_nil _, (hinj hmore).symm⟩

/-! ## Other offsets of events -/

section offsets
variable {f : Nat → Nat}

@[simp] theorem Event.mapOffsets_parts (e : Event) : (e.mapOffsets f).parts = e.parts := by
  cases e <;> rfl

/-- Only tokens are tokens at other offsets. -/
theorem exists_tokens_of_map {es : List Event} {toks : List Token}
    (h : es.map (·.mapOffsets f) = toks.map .token) :
    ∃ toks' : List Token, es = toks'.map .token ∧
      toks = toks'.map fun tok => { tok with span := tok.span.map f } := by
  induction es generalizing toks with
  | nil => exact ⟨[], rfl, List.map_eq_nil_iff.mp h.symm⟩
  | cons e es ih =>
    obtain ⟨tok, toks, rfl, he, hes⟩ := List.map_eq_cons_iff.mp h.symm
    obtain ⟨toks', rfl, rfl⟩ := ih hes.symm
    cases e with
    | token tok' =>
      cases he
      exact ⟨tok' :: toks', rfl, rfl⟩
    | enter mode scope offset => cases he
    | exit mode scope span closure => cases he

theorem IsStretch.of_map {front back : List Event} {toks : List Token}
    (h : IsStretch (front.map (·.mapOffsets f))
      (toks.map fun tok => { tok with span := tok.span.map f }) (back.map (·.mapOffsets f))) :
    IsStretch front toks back := by
  refine ⟨fun tok htok => h.plain { tok with span := tok.span.map f } ?_, fun e he => ?_,
    fun e he => ?_⟩
  · exact List.mem_map.mpr ⟨tok, htok, rfl⟩
  · rw [← Event.mapOffsets_parts (f := f)]
    exact h.front _ (by rw [List.getLast?_map, he]; rfl)
  · rw [← Event.mapOffsets_parts (f := f)]
    exact h.back _ (by rw [List.head?_map, he]; rfl)

end offsets

namespace Scan

/-- Between the events that part it, text has been written at once. -/
theorem Routes.divides {g : Grammar} {t : Text} {es : List Event} (h : Routes g t es)
    {front back : List Event} {toks : List Token}
    (hes : es.reverse = front ++ toks.map .token ++ back) (hne : toks ≠ [])
    (hstretch : IsStretch front toks back) :
    ∃ span, Divides ((g.keywordsIn (g.innermost (openBehind front)) (t.part span)).map
      (·.map (span.start + ·))) span toks := by
  have hne' : toks.map Event.token ≠ [] := List.map_eq_nil_iff.not.mpr hne
  induction h generalizing back with
  | start =>
    exact absurd (List.append_eq_nil_iff.mp (List.append_eq_nil_iff.mp hes.symm).1).2 hne'
  | @part es e _ he ih =>
    rw [List.reverse_cons] at hes
    obtain rfl | ⟨back, e', rfl⟩ := List.eq_nil_or_concat back
    · -- the event would be the last of the tokens
      have hlast : ∀ e ∈ (front ++ toks.map Event.token).getLast?, e.parts = true := by
        rw [← List.append_nil (front ++ _), ← hes, List.getLast?_concat]
        rintro _ ⟨⟩
        exact he
      exact absurd (eq_nil_of_plain hstretch.plain (fun _ => id) hlast) hne'
    · rw [List.concat_eq_append, ← List.append_assoc] at hes
      refine ih (List.append_inj' hes rfl).1 ⟨hstretch.plain, hstretch.front, fun e he => ?_⟩
      refine hstretch.back e ?_
      rw [List.concat_eq_append, List.head?_append, he]
      rfl
  | @text es toks' span _ hparted hdivides ih =>
    rw [List.reverse_append, List.reverse_reverse] at hes
    have hlast : ∀ e ∈ es.reverse.getLast?, e.parts = true := by
      rwa [List.getLast?_reverse]
    obtain ⟨more, hfront, hmore⟩ | ⟨more, hfront, hmore⟩ := List.append_eq_append_iff.mp hes
    · -- the stretch reaches into what has been written last, so that it is that
      have hback : back = [] := by
        rcases back with _ | ⟨e, back⟩
        · rfl
        have hmem : e ∈ toks'.map Event.token := hmore ▸ List.mem_append_right _ List.mem_cons_self
        obtain ⟨tok, htok, rfl⟩ := List.mem_map.mp hmem
        exact absurd (hstretch.back _ rfl) (Event.not_parts (hdivides.plain tok htok))
      rw [hback, List.append_nil] at hes
      obtain ⟨rfl, rfl⟩ := eq_of_append_eq_append hes hlast hstretch.front hstretch.plain
        hdivides.plain
      exact ⟨span, hdivides⟩
    · rcases more with _ | ⟨e, more⟩
      · rw [List.append_nil] at hfront
        exact absurd (eq_nil_of_plain hstretch.plain (fun _ => id) (hfront ▸ hlast)) hne'
      · refine ih hfront ⟨hstretch.plain, hstretch.front, fun e' he' => ?_⟩
        exact hstretch.back e' (hmore ▸ he')

end Scan

/-! ## Other offsets -/

section offsets
variable {f : Nat → Nat}

theorem gaps_map (stop i : Nat) (words : List Span) :
    gaps (f stop) (f i) (words.map (·.map f)) = (gaps stop i words).map (·.map f) := by
  induction words generalizing i with
  | nil => rfl
  | cons w ws ih => exact congrArg _ (ih w.stop)

theorem gaps_le {n stop i : Nat} {words : List Span} (hi : i ≤ n) (hstop : stop ≤ n)
    (hwords : ∀ w ∈ words, w.start ≤ n ∧ w.stop ≤ n) :
    ∀ s ∈ gaps stop i words, s.start ≤ n ∧ s.stop ≤ n := by
  induction words generalizing i with
  | nil =>
    rintro s hs
    obtain rfl := List.mem_singleton.mp hs
    exact ⟨hi, hstop⟩
  | cons w ws ih =>
    obtain ⟨hw, hws⟩ := List.forall_mem_cons.mp hwords
    exact List.forall_mem_cons.mpr ⟨⟨hi, hw.1⟩, ih hw.2 hws⟩

theorem Tiles.map {n i j : Nat} {toks : List Token} (h : Tiles i j toks) (hj : j ≤ n)
    (hf : ∀ i j, i < j → j ≤ n → f i < f j) :
    Tiles (f i) (f j) (toks.map fun tok => { tok with span := tok.span.map f }) := by
  induction toks generalizing i with
  | nil => exact congrArg f h
  | cons tok toks ih =>
    obtain ⟨hstart, hlt, htoks⟩ := h
    exact ⟨congrArg f hstart, hf _ _ hlt (htoks.le.trans hj), ih htoks⟩

/-- Unless there are none, tokens stop where the last of them does. -/
theorem Tiles.stop_le {i j n : Nat} {toks : List Token} (h : Tiles i j toks) (hne : toks ≠ [])
    (hle : ∀ tok ∈ toks, tok.span.stop ≤ n) : j ≤ n := by
  induction toks generalizing i with
  | nil => exact absurd rfl hne
  | cons tok toks ih =>
    obtain ⟨-, -, htoks⟩ := h
    obtain ⟨htok, hrest⟩ := List.forall_mem_cons.mp hle
    by_cases hnil : toks = []
    · subst hnil
      exact htoks ▸ htok
    · exact ih htoks hnil hrest

/-- Offsets that grow with the position carry the parts of a text over to them. -/
theorem Divides.map {n : Nat} {words : List Span} {span : Span} {toks : List Token}
    (h : Divides words span toks) (hstop : span.stop ≤ n)
    (hf : ∀ i j, i < j → j ≤ n → f i < f j) :
    Divides (words.map (·.map f)) (span.map f)
      (toks.map fun tok => { tok with span := tok.span.map f }) := by
  have hspans (kind : TokenKind) :
      ((toks.map fun tok => { tok with span := tok.span.map f }).filter (·.kind = kind)).map
          (·.span) = ((toks.filter (·.kind = kind)).map (·.span)).map (·.map f) := by
    rw [List.filter_map, List.map_map, List.map_map]
    rfl
  have hwords : ∀ w ∈ words, w.start ≤ n ∧ w.stop ≤ n := by
    intro w hw
    rw [← h.keywords] at hw
    obtain ⟨tok, htok, rfl⟩ := List.mem_map.mp hw
    obtain ⟨-, hlt, hle⟩ := h.tiles.within tok (List.mem_filter.mp htok).1
    omega
  have hempty : ∀ s : Span, s.start ≤ n ∧ s.stop ≤ n → (s.map f).isEmpty = s.isEmpty := by
    rintro ⟨i, j⟩ ⟨hi, hj⟩
    refine Span.isEmpty_map fun heq => ?_
    obtain hlt | heq' | hlt := Nat.lt_trichotomy i j
    · exact absurd heq (hf i j hlt hj).ne
    · exact heq'
    · exact absurd heq (hf j i hlt hi).ne'
  refine ⟨h.tiles.map hstop hf, ?_, ?_, ?_⟩
  · intro tok htok
    obtain ⟨tok', htok', rfl⟩ := List.mem_map.mp htok
    exact h.plain tok' htok'
  · rw [hspans, h.keywords]
  · rw [hspans, h.texts]
    show _ = (gaps (f span.stop) (f span.start) _).filter _
    rw [gaps_map, List.filter_map]
    refine congrArg _ (List.filter_congr fun s hs => ?_)
    have hbound := gaps_le (h.tiles.le.trans hstop) hstop hwords s hs
    exact congrArg _ (hempty s hbound).symm

end offsets

namespace Text
variable {t : Text}

theorem ofString_extract (span : Span) : ofString (t.extract span) = t.part span := by
  rw [ofString, extract, String.toList_ofList]
  rfl

theorem size_part {span : Span} (h : span.stop ≤ t.size) :
    (t.part span).size = span.stop - span.start := by
  rw [part, size, Array.size_extract, Nat.min_eq_left (show span.stop ≤ t.chars.size from h)]

/-- Offsets in a part of a text start where the part does. -/
theorem offset_part {span : Span} {i : Nat} (hi : span.start + i ≤ span.stop) :
    t.offset (span.start + i) = t.offset span.start + (t.part span).offset i := by
  have hpart : (t.part span).chars.toList =
      (t.chars.toList.drop span.start).take (span.stop - span.start) := by
    rw [part, Array.toList_extract, List.extract_eq_take_drop]
  rw [offset, offset, offset, hpart, List.take_take, Nat.min_eq_left (by omega), List.take_add,
    byteCount_append]

end Text

/-- The texts of tokens that cover a part of a source, at their byte offsets, make up the part. -/
theorem Tiles.ofString_join {source : String} {i j : Nat} {toks : List Token}
    (h : Tiles i j toks) :
    Text.ofString (String.join
      ((toks.map fun tok => { tok with span := tok.span.map (Text.ofString source).offset }).map
        (·.text source))) = (Text.ofString source).part ⟨i, j⟩ := by
  rw [← Text.ofString_extract, ← h.join_extract, List.map_map]
  refine congrArg (Text.ofString <| String.join ·) (List.map_congr_left fun tok htok => ?_)
  exact slice_offset source (h.within tok htok).2.1.le

/-- The keywords in a part of a text lie in the text where the part does. -/
theorem keywordsIn_part_map {g : Grammar} {m : Mode} {t : Text} {span : Span}
    (hspan : span.start ≤ span.stop) (hstop : span.stop ≤ t.size) :
    ((g.keywordsIn m (t.part span)).map (·.map (span.start + ·))).map (·.map t.offset) =
      (g.keywordsIn m (t.part span)).map
        (·.map (t.offset span.start + (t.part span).offset ·)) := by
  rw [List.map_map]
  refine List.map_congr_left fun hit hhit => ?_
  have hordered := Regex.findAll_ordered (g.effectiveKeywords m).2 (t.part span)
  obtain ⟨-, hle, hsize⟩ := hordered.within hit (List.mem_filter.mp hhit).1
  rw [Text.size_part hstop] at hsize
  have hoffset (i : Nat) (hi : i ≤ hit.stop) :
      t.offset (span.start + i) = t.offset span.start + (t.part span).offset i :=
    Text.offset_part (by omega)
  exact congrArg₂ Span.mk (hoffset hit.start hle) (hoffset hit.stop (Nat.le_refl _))

/-! ## What a scan ends with -/

/-- The events of a tokenization without the rest of the text that is left behind an illegal
sequence. -/
def Tokenization.scanned (r : Tokenization) : List Event :=
  if r.illegal.isSome then r.events.dropLast else r.events

namespace Scan
variable {g : Grammar} {t : Text} {steps : List Step} {s : State}

/-- What a scan ends with is routed: all of the events or, behind an illegal sequence, all but the
rest of the text. -/
theorem Ends.routed {policy : IllegalPolicy} {r : Tokenization} (hg : g.Numbered)
    (h : Trace g t steps s) (hr : Ends g t policy s (.ok r)) :
    ∃ n es, n ≤ t.size ∧ Written [] n es ∧ Routes g t es ∧
      r.scanned = es.reverse.map (·.mapOffsets t.offset) ∧
      ∀ i ∈ r.illegal, r.events = r.scanned ++ [.token ⟨⟨i, t.offset t.size⟩, none, .text⟩] := by
  have hnext' := (h.routed hg).nextStep
  have haligned := State.nextStep_aligned (g := g) (State.reachable_aligned h.reachable)
  have hall {s₁ : State} (i : Nat) (closure : Closure) (hs₁ : s₁.Routed g t) :
      Routes g t ((s₁.flushTo g t i).popAll i closure s₁.below.length).log.events :=
    State.popAll_induction (P := fun s => Routes g t s.log.events)
      (State.flushTo_routes hs₁.routes hs₁.parted hs₁.top_mode i)
      fun _ hs => State.pop_routes hs i closure
  cases hr with
  | done hnext =>
    rw [hnext] at hnext' haligned
    have hwritten := State.finishInput_written (g := g) haligned
    exact ⟨_, _, Nat.le_refl _, hwritten, hall t.size .endOfInput hnext',
      State.result_events hwritten, nofun⟩
  | @recovered s₁ i hnext hpolicy =>
    have hlt := nextStep_illegal_lt hg h.reachable hnext
    have hpos := (nextStep_illegal_within (reachable_recalls h.reachable) hnext).1
    rw [hnext] at hnext' haligned
    have hto := haligned.toCoveredTo.mono hpos
    have hrest : (s₁.recover g t i).log.events = .token ⟨⟨i, t.size⟩, none, .text⟩ ::
        ((s₁.flushTo g t i).popAll i .illegal s₁.below.length).log.events := by
      rw [State.recover]
      dsimp only
      rw [Log.raw, if_neg (by simpa [Span.isEmpty] using hlt.ne), Log.event]
    have hevents : ((s₁.recover g t i).result t (some i)).events = _ :=
      State.result_events (State.recover_written hto hlt.le)
    rw [hrest, List.reverse_cons, List.map_append] at hevents
    have hscanned : ((s₁.recover g t i).result t (some i)).scanned = _ :=
      (congrArg List.dropLast hevents).trans List.dropLast_concat
    have hillegal : ((s₁.recover g t i).result t (some i)).illegal = some (t.offset i) :=
      congrArg some (Text.offsets_getD t hlt.le)
    refine ⟨_, _, hlt.le, State.popAll_written .illegal hto, hall i .illegal hnext', hscanned, ?_⟩
    rw [hillegal]
    rintro _ ⟨⟩
    rw [hscanned, hevents]
    rfl

end Scan

open Scan

/-- In each stretch of text and keywords, the keywords are the words among the matches of the
innermost mode's expression in the text of the stretch, and each part of it in front of them,
between them and behind them is one token of text. Left out is the rest of a text behind an illegal
sequence, which is one token. -/
theorem keywords_routed {d : GrammarDef} {g : Grammar} {policy : IllegalPolicy} {source : String}
    {r : Tokenization} (hd : Grammar.compile d = .ok g) (h : g.tokenize policy source = .ok r) :
    (∀ i ∈ r.illegal,
      r.events = r.scanned ++ [.token ⟨⟨i, source.utf8ByteSize⟩, none, .text⟩]) ∧
    ∀ front first rest back, r.scanned = front ++ (first :: rest).map .token ++ back →
      IsStretch front (first :: rest) back →
      let w := Text.ofString (String.join ((first :: rest).map (·.text source)))
      Divides
        ((g.keywordsIn (g.innermost (openBehind front)) w).map
          (·.map (first.span.start + w.offset ·)))
        ⟨first.span.start, first.span.start + w.offset w.size⟩ (first :: rest) := by
  have hg := Grammar.compile_numbered hd
  obtain ⟨steps, s, htrace, hends⟩ := (tokenize_eq_iff hg).mp h
  obtain ⟨n, es, hn, hwritten, hroutes, hscanned, hillegal⟩ := hends.routed hg htrace
  refine ⟨by rwa [Text.offset_size] at hillegal, fun front first rest back hevents hstretch => ?_⟩
  generalize htoks : first :: rest = toks at hevents hstretch ⊢
  generalize ht : Text.ofString source = t at *
  rw [hscanned, List.map_eq_append_iff] at hevents
  obtain ⟨front', back', hes, hfront, rfl⟩ := hevents
  obtain ⟨front, mid, rfl, rfl, hmid⟩ := List.map_eq_append_iff.mp hfront
  obtain ⟨toks, rfl, rfl⟩ := exists_tokens_of_map hmid
  have hstretch' : IsStretch front toks back' := hstretch.of_map
  have hne : toks ≠ [] := by
    rintro rfl
    cases htoks
  obtain ⟨span, hdivides⟩ := hroutes.divides hes hne hstretch'
  have htiles := hdivides.tiles
  have hstop : span.stop ≤ t.size := by
    refine htiles.stop_le hne fun tok htok => ?_
    have hleaf : tok ∈ leaves es.reverse := by
      rw [hes, leaves_append, leaves_append]
      refine List.mem_append_left _ (List.mem_append_right _ ?_)
      exact List.mem_filterMap.mpr ⟨_, List.mem_map_of_mem htok, rfl⟩
    exact (hwritten.covers.tiles.within tok hleaf).2.2.trans hn
  -- at byte offsets, the piece starts where its first token does
  have hstart : first.span.start = t.offset span.start := by
    obtain ⟨tok, toks, rfl, rfl, -⟩ := List.map_eq_cons_iff.mp htoks.symm
    exact congrArg t.offset htiles.1
  have hlength : t.offset span.start + (t.part span).offset (t.part span).size =
      t.offset span.stop := by
    have hle := htiles.le
    rw [Text.size_part hstop, ← Text.offset_part (by omega), Nat.add_sub_cancel' hle]
  have hw := @Tiles.ofString_join source _ _ _ htiles
  rw [ht] at hw
  dsimp only
  rw [hw, openBehind_map, innermost_map, hstart, hlength, ← keywordsIn_part_map htiles.le hstop]
  exact hdivides.map hstop fun i j => t.offset_lt_offset

theorem keywords_routed_remarks :
    Grammar.compile remarksDef = .ok remarks ∧
      remarks.tokenize .abort "let <be x>" = .ok keywordAndRemark ∧
      IsStretch (keywordAndRemark.events.take 4)
        [⟨⟨5, 7⟩, some ⟨"word"⟩, .keyword⟩, ⟨⟨7, 9⟩, some ⟨"remark"⟩, .text⟩]
        (keywordAndRemark.events.drop 6) ∧
      Divides [⟨5, 7⟩] ⟨5, 9⟩
        [⟨⟨5, 7⟩, some ⟨"word"⟩, .keyword⟩, ⟨⟨7, 9⟩, some ⟨"remark"⟩, .text⟩] := by
  have hstretch : IsStretch (keywordAndRemark.events.take 4)
      [⟨⟨5, 7⟩, some ⟨"word"⟩, .keyword⟩, ⟨⟨7, 9⟩, some ⟨"remark"⟩, .text⟩]
      (keywordAndRemark.events.drop 6) := ⟨by simp, by decide, by decide⟩
  have hwords : (remarks.keywordsIn (remarks.mode 1) (.ofString "be x")).map
      (·.map (5 + (Text.ofString "be x").offset ·)) = [⟨5, 7⟩] := by
    decide +kernel
  obtain ⟨-, hrouted⟩ := keywords_routed compile_eq_remarks tokenize_remarks
  have hdivides := hrouted (keywordAndRemark.events.take 4)
    ⟨⟨5, 7⟩, some ⟨"word"⟩, .keyword⟩ [⟨⟨7, 9⟩, some ⟨"remark"⟩, .text⟩]
    (keywordAndRemark.events.drop 6) rfl hstretch
  exact ⟨compile_eq_remarks, tokenize_remarks, hstretch, hwords ▸ hdivides⟩

end Tinct
