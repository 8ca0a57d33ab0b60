import Tinct.Proofs.Grammar.Declared
import Tinct.Proofs.Pattern.Captures

/-!
# Templates and the matches they refer to

A reference of an end pattern is to a group that the begin has, so that what it inserts is what this
group has captured in the match that the region began with:

* `TemplatePiece.RefersTo`: the groups that a piece refers to;
* `PatternScope.exists_refersTo_of_endPattern`: a template refers to groups of its begin;
* `Captures.Hold`: what the groups of a match have captured, in order;
* `Grammar.captures_of_template`: the templates of a compiled grammar insert what the accepted match
  has captured.
-/

namespace Tinct

/-! ## References and groups -/

/-- The piece refers to the group number `k`, where the groups have the names `names`. -/
def TemplatePiece.RefersTo (names : List (Option String)) (k : Nat) : TemplatePiece → Prop
  | .text _ => False
  | .group i => i = k ∧ k < names.length
  | .named name => names[k]? = some (some name)

namespace PatternScope
variable {p : PatternScope} {source : String} {begin : Matcher}

/-- A reference that is let through is one to a group of the begin. -/
theorem exists_refersTo_of_checkPiece {piece : TemplatePiece}
    (h : checkPiece source begin piece = .ok ()) :
    (∃ text, piece = .text text) ∨ ∃ k, piece.RefersTo begin.regex.groupNames k := by
  cases piece with
  | text text => exact .inl ⟨text, rfl⟩
  | group i =>
    rw [checkPiece] at h
    split at h
    · cases h
    · rename_i hlt
      exact .inr ⟨i, rfl, Nat.lt_of_not_le hlt⟩
  | named name =>
    rw [checkPiece] at h
    split at h
    · rename_i hmem
      rw [List.contains_iff_mem] at hmem
      exact .inr (List.getElem?_of_mem hmem)
    · cases h

theorem exists_refersTo_of_endPattern {pattern : Pattern} {e : EndTemplate}
    (h : p.endPattern pattern begin = .ok (.template e)) {piece : TemplatePiece}
    (hpiece : piece ∈ e.pieces) :
    (∃ text, piece = .text text) ∨ ∃ k, piece.RefersTo begin.regex.groupNames k := by
  obtain ⟨source, -, h⟩ := bind_eq_ok.mp h
  obtain ⟨refers, -, h⟩ := bind_eq_ok.mp h
  split at h
  · obtain ⟨m, -, h⟩ := bind_eq_ok.mp h
    cases h
  · obtain ⟨lowered, -, h⟩ := bind_eq_ok.mp h
    obtain ⟨pieces, -, h⟩ := bind_eq_ok.mp h
    obtain ⟨_, hpieces, h⟩ := bind_eq_ok.mp h
    obtain ⟨follows, -, h⟩ := bind_eq_ok.mp h
    obtain ⟨m, -, h⟩ := bind_eq_ok.mp h
    cases h
    exact exists_refersTo_of_checkPiece (forM_eq_ok hpieces hpiece)

/-! ## The whole match as a group -/

theorem head?_groupNames_of_compileRegex {ignoreCase : Bool} {r : Regex}
    (h : compileRegex source ignoreCase = .ok r) : r.groupNames.head? = some none := by
  unfold compileRegex Regex.compile at h
  split at h
  · rename_i hcompile
    cases h
    split at hcompile
    · cases hcompile
    · split at hcompile <;> cases hcompile
      rfl
  · cases h
  · cases h

theorem head?_groupNames_of_finish {m : Matcher} (h : p.finish source = .ok m) :
    m.regex.groupNames.head? = some none := by
  obtain ⟨lowered, -, h⟩ := bind_eq_ok.mp h
  obtain ⟨regex, hregex, h⟩ := bind_eq_ok.mp h
  obtain ⟨follows, -, h⟩ := bind_eq_ok.mp h
  cases h
  exact head?_groupNames_of_compileRegex hregex

theorem head?_groupNames_of_matcher {pattern : Pattern} {m : Matcher}
    (h : p.matcher pattern = .ok m) : m.regex.groupNames.head? = some none := by
  obtain ⟨source, -, h⟩ := bind_eq_ok.mp h
  obtain ⟨refers, -, h⟩ := bind_eq_ok.mp h
  split at h
  · cases h
  · exact head?_groupNames_of_finish h

theorem head?_groupNames_of_words {ws : List String} {m : Matcher} (h : p.words ws = .ok m) :
    m.regex.groupNames.head? = some none := by
  unfold words at h
  split at h
  · cases h
  · obtain ⟨regex, hregex, h⟩ := bind_eq_ok.mp h
    obtain ⟨follow, -, h⟩ := bind_eq_ok.mp h
    cases h
    exact head?_groupNames_of_compileRegex hregex

end PatternScope

namespace GrammarDef
variable {d : GrammarDef} {md : ModeDef} {v : Variant}

theorem Forms.head?_groupNames (h : d.Forms md v) :
    v.begin.regex.groupNames.head? = some none := by
  obtain ⟨p, hp⟩ | hown := h.begin
  · exact PatternScope.head?_groupNames_of_matcher (mapError_eq_ok.mp hp)
  · unfold ownBegin at hown
    split at hown
    · obtain ⟨begin, hbegin, hown⟩ := bind_eq_ok.mp hown
      cases hown
      exact PatternScope.head?_groupNames_of_words (mapError_eq_ok.mp hbegin)
    · obtain ⟨begin, hbegin, hown⟩ := bind_eq_ok.mp hown
      cases hown
      exact PatternScope.head?_groupNames_of_matcher (mapError_eq_ok.mp hbegin)
    · cases hown

theorem Forms.exists_endPattern (h : d.Forms md v) {q : EndPattern} (hq : v.finish = .pattern q) :
    ∃ p, d.patternScope.endPattern p v.begin = .ok q := by
  obtain ⟨p, isMatch, hfinish⟩ := h.finish
  rw [hq] at hfinish
  unfold GrammarDef.finish at hfinish
  split at hfinish
  · cases hfinish
  split at hfinish
  · obtain ⟨q', hq', heq⟩ := bind_eq_ok.mp hfinish
    cases heq
    exact ⟨_, mapError_eq_ok.mp hq'⟩
  · split at hfinish <;> cases hfinish

end GrammarDef

/-! ## Captures -/

theorem escape_eq_empty {s : String} (h : escape s = "") : s = "" := by
  have hlist := congrArg String.toList h
  rw [escape, String.toList_ofList] at hlist
  cases hs : s.toList with
  | nil => exact String.toList_inj.mp hs
  | cons c cs =>
    rw [hs, List.flatMap_cons] at hlist
    split at hlist <;> cases hlist

namespace Captures
variable {cs : Captures} {names : List (Option String)} {t : Text} {r : Span} {f : Regex.Finish}

/-- The slots hold, in the order of the groups and under their names, what the groups of a match
have captured: the whole of it in slot 0, and in each other what was recorded for the group. -/
structure Hold (cs : Captures) (names : List (Option String)) (t : Text) (r : Span)
    (f : Regex.Finish) : Prop where
  names : cs.map (·.name) = names
  whole : cs[0]? = some ⟨none, some (t.extract r)⟩
  group : ∀ k c, 0 < k → cs[k]? = some c → c.value = (f.group? k).map t.extract

theorem hold_captures {m : Matcher} {allowEmpty : Bool} (hf : m.LooksAt t allowEmpty r.start f)
    (hstop : f.stop = r.stop) (hr : r.start ≤ t.size)
    (hwhole : m.regex.groupNames.head? = some none) :
    (m.captures t r).Hold m.regex.groupNames t r f := by
  rw [Matcher.captures_of_looksAt hf hstop hr]
  refine ⟨?_, ?_, fun k c hk hc => ?_⟩
  · rw [List.map_map]
    exact List.zipIdx_map_fst 0 _
  · rw [List.getElem?_map, List.getElem?_zipIdx, ← List.head?_eq_getElem?, hwhole]
    rfl
  · rw [List.getElem?_map, List.getElem?_zipIdx] at hc
    obtain ⟨⟨name, k'⟩, hname, rfl⟩ := Option.map_eq_some_iff.mp hc
    obtain ⟨name', -, heq⟩ := Option.map_eq_some_iff.mp hname
    cases heq
    dsimp only
    rw [if_neg (by omega), Nat.zero_add]

/-- What a reference inserts is what the slot of a group holds that it refers to. -/
theorem exists_toSource_eq {piece : TemplatePiece} {k : Nat} (h : piece.RefersTo names k)
    (hnames : cs.map (·.name) = names) :
    ∃ k' c, piece.RefersTo names k' ∧ cs[k']? = some c ∧
      piece.toSource cs = escape (c.value.getD "") := by
  cases piece with
  | text text => cases h
  | group i =>
    obtain ⟨rfl, hk⟩ := h
    have hi : i < cs.length := by rwa [← hnames, List.length_map] at hk
    have hc : cs[i]? = some cs[i] := List.getElem?_eq_getElem hi
    refine ⟨i, cs[i], ⟨rfl, hk⟩, hc, ?_⟩
    rw [TemplatePiece.toSource, byIndex?, hc, Option.bind_some]
  | named name =>
    -- of several slots with the name the first is the one that is read
    have hname : some name ∈ cs.map (·.name) := hnames ▸ List.mem_of_getElem? h
    obtain ⟨c', hc', heq⟩ := List.mem_map.mp hname
    cases hfind : cs.find? (·.name == some name) with
    | none => exact absurd (beq_iff_eq.mpr heq) (List.find?_eq_none.mp hfind c' hc')
    | some c =>
      obtain ⟨k', hk'⟩ := List.getElem?_of_mem (List.mem_of_find?_eq_some hfind)
      have hc : c.name = some name := by simpa using List.find?_some hfind
      refine ⟨k', c, ?_, hk', ?_⟩
      · rw [TemplatePiece.RefersTo, ← hnames, List.getElem?_map, hk', Option.map_some, hc]
      · rw [TemplatePiece.toSource, byName?, hfind, Option.bind_some]

end Captures

/-- What an end template inserts for a region of a compiled grammar is what the match has captured
that the region begins with. -/
theorem Grammar.captures_of_template {d : GrammarDef} {g : Grammar} (hg : compile d = .ok g)
    {i : Nat} {m : Mode} (hm : g.modes[i]? = some m) {v : Variant} (hv : v ∈ m.variants)
    {e : EndTemplate} (he : v.finish = .pattern (.template e)) {t : Text} {start : Nat}
    {allowEmpty : Bool} {r : Span} (hr : v.begin.find? t start allowEmpty = some r) :
    (∃ f, v.begin.LooksAt t allowEmpty r.start f ∧ f.stop = r.stop ∧
      v.begin.accepts t allowEmpty r.start r.stop = true ∧
      (v.begin.captures t r).Hold v.begin.regex.groupNames t r f) ∧
    ∀ piece ∈ e.pieces, (∃ text, piece = .text text) ∨
      ∃ k c, piece.RefersTo v.begin.regex.groupNames k ∧ (v.begin.captures t r)[k]? = some c ∧
        piece.toSource (v.begin.captures t r) = escape (c.value.getD "") ∧
        (piece.toSource (v.begin.captures t r) = "" → c.value = none ∨ c.value = some "") := by
  obtain hvariants | ⟨md, -, hrealizes⟩ := declared_of_compile hg hm
  · rw [hvariants] at hv
    cases hv
  have hforms := GrammarDef.forms_of_variants hrealizes.variants hv
  obtain ⟨f, hf, hstop, haccepts⟩ := Matcher.exists_looksAt_of_find? hr
  have hinside := Matcher.find?_bounds hr
  have hstart : r.start ≤ t.size := hinside.2.1.trans hinside.2.2
  have hhold := Captures.hold_captures hf hstop hstart hforms.head?_groupNames
  refine ⟨⟨f, hf, hstop, haccepts, hhold⟩, fun piece hpiece => ?_⟩
  obtain ⟨p, hp⟩ := hforms.exists_endPattern he
  obtain htext | ⟨k, hk⟩ := PatternScope.exists_refersTo_of_endPattern hp hpiece
  · exact .inl htext
  obtain ⟨k', c, hk', hc, hsource⟩ := Captures.exists_toSource_eq hk hhold.names
  refine .inr ⟨k', c, hk', hc, hsource, fun hempty => ?_⟩
  have hvalue := escape_eq_empty (hsource.symm.trans hempty)
  cases hv : c.value with
  | none => exact .inl rfl
  | some s =>
    rw [hv] at hvalue
    exact .inr (congrArg some hvalue)

/-- The template of an end, if it refers back. -/
def Finish.template? : Finish → Option EndTemplate
  | .pattern (.template e) => some e
  | _ => none

theorem Finish.template?_eq_some {q : Finish} {e : EndTemplate} (h : q.template? = some e) :
    q = .pattern (.template e) := by
  unfold template? at h
  split at h <;> cases h
  rfl

/-- Text between rulers of equal length, the last sign of which is left out at the begin. -/
def rulersDef : GrammarDef where
  name := "rulers"
  contains := [.ref "block"]
  modes := [("block",
    { scope := some "block", begin := some (.source "(=+)(?==)"),
      finish := some (.source "\\1=") })]

/-- The check behind the begin leaves two of three signs, and so many are inserted. -/
theorem Grammar.captures_of_template_rulers : ∃ g m v e, compile rulersDef = .ok g ∧
    g.modes[1]? = some m ∧ v ∈ m.variants ∧ v.finish = .pattern (.template e) ∧
    v.begin.find? (.ofString "===") 0 false = some ⟨0, 2⟩ ∧
    (v.begin.captures (.ofString "===") ⟨0, 2⟩)[0]? = some ⟨none, some "=="⟩ ∧
    TemplatePiece.group 1 ∈ e.pieces := by
  have hfind : (compile rulersDef).toOption.bind (fun g => g.modes[1]?.bind fun m =>
      m.variants.head?.bind fun v => v.finish.template?.map fun e =>
        (v.begin.find? (.ofString "===") 0 false, decide (TemplatePiece.group 1 ∈ e.pieces))) =
      some (some ⟨0, 2⟩, true) := by
    decide +kernel
  obtain ⟨g, hg, hfind⟩ := Option.bind_eq_some_iff.mp hfind
  obtain ⟨m, hm, hfind⟩ := Option.bind_eq_some_iff.mp hfind
  obtain ⟨v, hv, hfind⟩ := Option.bind_eq_some_iff.mp hfind
  obtain ⟨e, he, hfind⟩ := Option.map_eq_some_iff.mp hfind
  obtain ⟨hr, hpiece⟩ := Prod.mk.inj hfind
  have hg' := eq_ok_of_toOption_eq_some hg
  have hv' := List.mem_of_mem_head? hv
  have he' := Finish.template?_eq_some he
  obtain ⟨⟨f, -, -, -, hhold⟩, -⟩ := captures_of_template hg' hm hv' he' hr
  exact ⟨g, m, v, e, hg', hm, hv', he', hr, hhold.whole, of_decide_eq_true hpiece⟩

end Tinct
