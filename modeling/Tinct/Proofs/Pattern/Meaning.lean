import Tinct.Proofs.Pattern.Operands
import Tinct.Proofs.Regex.Acceptance

/-!
# Patterns of plain sources

A regular expression passes through a pattern unchanged, if it is plain. By itself it is its own
matcher. As an operand and as a named pattern it stands for the same, but that its groups without a
name do not record:

* `Matcher.StandsFor`: a matcher finds what an expression stands for;
* `PatternScope.Means`: what patterns stand for that are made of plain sources;
* `PatternScope.Means.assembles`, `PatternScope.Means.standsFor`: the sources that they are
  assembled into stand for the same, and their matchers find it;
* `PatternScope.plain_passes_through`: plain regular expressions pass through any pattern.
-/

namespace Tinct

open Regex (Expr Reading Item)

/-- A matcher finds what the expression `e` stands for, but that groups without a name do not
record. -/
structure Matcher.StandsFor (m : Matcher) (e : Expr) : Prop where
  follows : m.follows = []
  expr : ∃ e', m.regex = .ofExpr m.source e' ∧ e'.Anonymized e
  ends : ∀ (t : Text) (start stop : Nat), start ≤ t.size →
    (stop ∈ m.regex.ends t start ↔ e.Spells t start stop)

/-- Wherever a source is read under the flags `f` in which the operand `a` stands, it stands there
for the expression `e`, but that groups without a name do not record. -/
structure Regex.Flags.Serves (f : Flags) (a : String) (e : Expr) : Prop where
  /-- A named pattern is one element, which a repetition may follow. -/
  named : ∀ r more, Reading.At r f (grouped a).toList more →
    ∃ r' i, r.Passes r' [] [i] ∧ r'.flags = f ∧ r'.rest = more ∧ i.repeatable = true ∧
      i.expr.Anonymized e
  /-- An operand of a sequence is elements in a row. -/
  operand : ∃ s, asOperand needsGrouping a = .ok s ∧
    ∀ r more, Reading.At r f s.toList more → repeats more = false →
      ∃ r' is, r.Passes r' [] is ∧ r'.flags = f ∧ r'.rest = more ∧ Item.InRow is e
  /-- An operand of a choice is one or more branches. -/
  branch : ∃ s, asOperand leaksFlags a = .ok s ∧
    ∀ r more, Reading.At r f s.toList more → repeats more = false → r.group.items = [] →
      ∃ r' branches is, r.Passes r' branches is ∧ r'.flags = f ∧ r'.rest = more ∧
        Item.Branches (branches ++ [.sequence is]) e

/-- What refers to a named pattern. -/
def reference (name : String) : String := "\x7b\x7b" ++ name ++ "\x7d\x7d"

/-! ## Sources that hold no extension -/

theorem lex_reference {name : String} (h : LexemeKind.isWord name.toList = true) :
    ∃ l, lex (reference name) = .ok [l] ∧ l.kind = .reference ∧ l.name = name := by
  have htext : (reference name).toList =
      ('\x7b' :: '\x7b' :: (name.toList ++ ['\x7d', '\x7d'])) ++ [] := by
    simp [reference]
  have hnext := (LexemeKind.HasText.reference h).next?_append []
  rw [List.append_nil] at htext hnext
  refine ⟨⟨.reference, (reference name).toList⟩, ?_, rfl, ?_⟩
  · refine lex_eq_ok_iff.mpr ?_
    have hreads : Reads ((reference name).toList ++ []) [⟨.reference, (reference name).toList⟩] :=
      .cons (by rw [List.append_nil, htext, hnext]) .nil
    rwa [List.append_nil] at hreads
  · refine String.toList_inj.mp ?_
    simp [Lexeme.name, htext]

/-! ## Elements as a source -/

namespace Regex

theorem grouped_join (ls : List Lexeme) : grouped (Lexeme.join ls) = Lexeme.join (inGroup ls) :=
  String.toList_inj.mp (by simp [grouped, Lexeme.join, inGroup, opener])

theorem join_flatten (lss : List (List Lexeme)) :
    String.join (lss.map Lexeme.join) = Lexeme.join lss.flatten := by
  refine String.toList_inj.mp ?_
  rw [String.toList_join, List.flatMap_map, Part.toList_join, List.flatten_eq_flatMap,
    List.flatMap_assoc]
  simp only [Part.toList_join, id_eq]

theorem intercalate_join (lss : List (List Lexeme)) :
    "|".intercalate (lss.map Lexeme.join) =
      Lexeme.join ([⟨.alternate, ['|']⟩].intercalate lss) := by
  induction lss with
  | nil => rfl
  | cons ls lss ih =>
    cases lss with
    | nil => rw [List.map_singleton, String.intercalate_singleton, List.intercalate_singleton]
    | cons ks lss =>
      rw [List.map_cons] at ih ⊢
      rw [List.map_cons, String.intercalate_cons_cons, ih, Flags.intercalate_bar]
      exact String.toList_inj.mp (by simp [Lexeme.join])

namespace Operand
variable {ls : List Lexeme}

theorem cuts_join (h : Operand ls) : Cuts.Ordinary (Lexeme.join ls).toList ls := by
  have hcuts := h.cuts .nil
  rw [List.append_nil, List.append_nil] at hcuts
  rw [Part.toList_join]
  exact ⟨hcuts, h.ordinary, h.closes⟩

/-- Nothing in it loses its number. -/
theorem anonymize_join (h : Operand ls) : anonymize (Lexeme.join ls) = .ok (Lexeme.join ls) := by
  obtain ⟨ls', hlex, hpieces, -, hjoin⟩ := h.cuts_join.exists_lex
  have hopen : ∀ l ∈ ls', l.kind ≠ .open :=
    forall_of_pieces (p := (· ≠ .open)) LexemeKind.noConfusion (hpieces ▸ h.anonymous)
  refine bind_eq_ok.mpr ⟨ls', hlex, congrArg Except.ok ?_⟩
  rw [← hjoin]
  exact congrArg String.ofList (List.flatMap_congr fun l hl => if_neg (hopen l hl))

end Operand

namespace Flags
variable {f : Flags} {ls : List Lexeme} {e : Expr}

/-- An operand of a sequence becomes a group where it reaches beyond its place. -/
theorem StandFor.asOperand_needsGrouping (h : f.StandFor ls e) (hf : f.verbose = false) :
    ∃ ks, asOperand needsGrouping (Lexeme.join ls) = .ok (Lexeme.join ks) ∧ f.StandInRow ks e := by
  have hneeds := h.cuts_join.cuts.needsGrouping_eq
  cases hgroup : hasOutside .alternate 0 ls || hasOutside .flags 0 ls with
  | true =>
    rw [hgroup] at hneeds
    rw [asOperand, hneeds]
    exact ⟨_, congrArg Except.ok (grouped_join ls), h.inGroup hf⟩
  | false =>
    rw [hgroup] at hneeds
    rw [asOperand, hneeds]
    obtain ⟨hchoices, hflags⟩ := Bool.or_eq_false_iff.mp hgroup
    exact ⟨ls, rfl, h, hchoices, hflags⟩

/-- A branch becomes a group where its flags reach beyond its place. -/
theorem StandFor.asOperand_leaksFlags (h : f.StandFor ls e) (hf : f.verbose = false) :
    ∃ ks, asOperand leaksFlags (Lexeme.join ls) = .ok (Lexeme.join ks) ∧ f.StandAsBranch ks e := by
  have hleaks := h.cuts_join.cuts.leaksFlags_eq
  cases hgroup : hasOutside .flags 0 ls with
  | true =>
    rw [hgroup] at hleaks
    rw [asOperand, hleaks]
    have hrow := h.inGroup hf
    exact ⟨_, congrArg Except.ok (grouped_join ls), hrow.toStandFor, hrow.flags⟩
  | false =>
    rw [hgroup] at hleaks
    rw [asOperand, hleaks]
    exact ⟨ls, rfl, h, hgroup⟩

/-- What stands for an expression does so in each place of a pattern. -/
theorem StandFor.serves (h : f.StandFor ls e) (hf : f.verbose = false) :
    f.Serves (Lexeme.join ls) e := by
  obtain ⟨ks, hks, hrow⟩ := h.asOperand_needsGrouping hf
  obtain ⟨js, hjs, hbranch⟩ := h.asOperand_leaksFlags hf
  refine ⟨fun r more hat => ?_, ⟨_, hks, fun r more hat hmore => ?_⟩,
    ⟨_, hjs, fun r more hat hmore hnone => ?_⟩⟩
  · rw [grouped_join, Part.toList_join] at hat
    exact h.passes_inGroup hf hat
  · rw [Part.toList_join] at hat
    exact hrow.passes hat hmore
  · rw [Part.toList_join] at hat
    obtain ⟨r', branches, is, hpasses, hrest, hflags, -, -, hbranches⟩ :=
      hbranch.reads hat hmore fun _ => hnone
    exact ⟨r', branches, is, hpasses, hflags hbranch.flags, hrest, hbranches⟩

end Flags
end Regex

/-! ## Patterns -/

namespace PatternScope
variable {p : PatternScope}

/-- What operands stand for, one by one, if they are made of plain sources. -/
inductive Means (p : PatternScope) : List Pattern → List Expr → Prop
  | nil : Means p [] []
  | source {source : String} {e : Expr} {ps : List Pattern} {es : List Expr}
    (hparse : Expr.parse? p.flags source = some e) (hplain : p.isPlain source = true) :
    Means p ps es → Means p (.source source :: ps) (e :: es)
  | reference {name : String} {q : Pattern} {e : Expr} {ps : List Pattern} {es : List Expr}
    (hword : LexemeKind.isWord name.toList = true) (hname : p.named.get? name = some q) :
    Means p [q] [e] → Means p ps es → Means p (.source (reference name) :: ps) (e :: es)
  | concat {operands ps : List Pattern} {fs es : List Expr} :
    Means p operands fs → Means p ps es → Means p (.concat operands :: ps) (.concat fs :: es)
  | either {operands ps : List Pattern} {fs es : List Expr} :
    Means p operands fs → Means p ps es → Means p (.either operands :: ps) (.choice fs :: es)

/-! ### What they are assembled into -/

section assembled
variable {resolve : String → Except PatternError String} {outermost : Bool}
  {ps : List Pattern} {ss : List String} {es : List Expr} {a : String} {ls : List Lexeme} {e : Expr}

/-- What a pattern is assembled into stands for the expression `e`. -/
def Assembles (p : PatternScope) (resolve : String → Except PatternError String) (pattern : Pattern)
    (e : Expr) : Prop :=
  ∀ a, assembleWith resolve false pattern = .ok a →
    ∃ ls, a = Lexeme.join ls ∧ p.flags.StandFor ls e

theorem forall₂_of_assembleOperands {needsGroup : String → Except PatternError Bool}
    (h : assembleOperands resolve needsGroup ps = .ok ss) :
    List.Forall₂ (fun pattern s => ∃ a, assembleWith resolve false pattern = .ok a ∧
      asOperand needsGroup a = .ok s) ps ss := by
  induction ps generalizing ss with
  | nil =>
    cases h
    exact .nil
  | cons pattern ps ih =>
    rw [assembleOperands] at h
    obtain ⟨a, ha, h⟩ := bind_eq_ok.mp h
    obtain ⟨s, hs, h⟩ := bind_eq_ok.mp h
    obtain ⟨ss, hss, h⟩ := bind_eq_ok.mp h
    cases h
    exact .cons ⟨a, ha, hs⟩ (ih hss)

/-- Operands stand for what they do by themselves. -/
theorem exists_operands {needsGroup : String → Except PatternError Bool}
    {R : List Lexeme → Expr → Prop}
    (hoperand : ∀ {ls e}, p.flags.StandFor ls e →
      ∃ ks, asOperand needsGroup (Lexeme.join ls) = .ok (Lexeme.join ks) ∧ R ks e)
    (h : List.Forall₂ (p.Assembles resolve) ps es)
    (hss : assembleOperands resolve needsGroup ps = .ok ss) :
    ∃ lss, ss = lss.map Lexeme.join ∧ List.Forall₂ R lss es := by
  replace hss := forall₂_of_assembleOperands hss
  induction h generalizing ss with
  | nil =>
    cases hss
    exact ⟨[], rfl, .nil⟩
  | cons hassembles _ ih =>
    cases hss with
    | cons hs hss =>
      obtain ⟨a, ha, hs⟩ := hs
      obtain ⟨ls, rfl, hls⟩ := hassembles a ha
      obtain ⟨ks, hks, hR⟩ := hoperand hls
      obtain ⟨lss, rfl, hlss⟩ := ih hss
      obtain rfl := Except.ok.inj (hks.symm.trans hs)
      exact ⟨ks :: lss, rfl, .cons hR hlss⟩

theorem exists_standFor_concat (h : List.Forall₂ (p.Assembles resolve) ps es)
    (ha : assembleWith resolve outermost (.concat ps) = .ok a) :
    ∃ ls, a = Lexeme.join ls ∧ p.flags.StandFor ls (.concat es) := by
  obtain ⟨ss, hss, -, rfl⟩ := Part.assembleWith_concat ha
  obtain ⟨lss, rfl, hlss⟩ := exists_operands (fun h => h.asOperand_needsGrouping rfl) h hss
  exact ⟨_, Regex.join_flatten lss, (Regex.Flags.StandInRow.concat hlss).toStandFor⟩

theorem exists_standFor_either (h : List.Forall₂ (p.Assembles resolve) ps es)
    (ha : assembleWith resolve outermost (.either ps) = .ok a) :
    ∃ ls, a = Lexeme.join ls ∧ p.flags.StandFor ls (.choice es) := by
  obtain ⟨ss, hss, hne, rfl⟩ := Part.assembleWith_either ha
  have hne : es ≠ [] := by
    rintro rfl
    cases h
    cases hne
  obtain ⟨lss, rfl, hlss⟩ := exists_operands (fun h => h.asOperand_leaksFlags rfl) h hss
  rw [Regex.intercalate_join, Regex.grouped_join]
  have hchoice := Regex.Flags.StandAsBranch.choice hlss hne rfl
  exact ⟨_, rfl, (hchoice.toStandFor.inGroup rfl).toStandFor⟩

theorem exists_standFor_reference {name : String} (hword : LexemeKind.isWord name.toList = true)
    (h : ∀ t, resolve name = .ok t → ∃ ls, t = Lexeme.join ls ∧ p.flags.StandFor ls e)
    (ha : assembleWith resolve outermost (.source (Tinct.reference name)) = .ok a) :
    ∃ ls, a = Lexeme.join ls ∧ p.flags.StandFor ls e := by
  obtain ⟨l, hlex, hkind, hname⟩ := lex_reference hword
  rw [assembleWith, hlex] at ha
  obtain ⟨ks, hks, ha⟩ := bind_eq_ok.mp ha
  obtain rfl := Except.ok.inj hks
  obtain ⟨s, hs, ha⟩ := bind_eq_ok.mp ha
  rw [splice, if_pos hkind, hname] at hs
  obtain ⟨text, htext, hs⟩ := bind_eq_ok.mp hs
  obtain ⟨t, ht, rfl⟩ := map_eq_ok.mp htext
  obtain ⟨ls, rfl, hls⟩ := h t ht
  obtain ⟨rest, hrest, hs⟩ := bind_eq_ok.mp hs
  cases hrest
  obtain rfl : Lexeme.join (Regex.inGroup ls) = s := by
    rw [← Regex.grouped_join, ← Except.ok.inj hs, String.append_empty]
  have hgroup := hls.inGroup rfl
  cases outermost with
  | true => exact ⟨_, (Except.ok.inj ha).symm, hgroup.toStandFor⟩
  | false => exact ⟨_, Except.ok.inj (ha.symm.trans hgroup.anonymize_join), hgroup.toStandFor⟩

/-- The source of a plain regular expression stands for what this is by itself. -/
theorem exists_standFor_source {source : String} (hparse : Expr.parse? p.flags source = some e)
    (hplain : p.isPlain source = true) :
    ∃ ls, (∀ resolve, assembleWith resolve false (.source source) = .ok (Lexeme.join ls)) ∧
      p.flags.StandFor ls e := by
  obtain ⟨ls, w, hcut, hrest, hwhole⟩ := exists_cut hparse hplain
  have hordinary := hcut.ordinary hrest (Regex.Reading.of_whole? hwhole).1
  exact ⟨_, hordinary.assembleWith_source, hcut.standFor hrest hwhole⟩

end assembled

/-- A name is resolved to what the pattern with that name stands for. -/
theorem exists_standFor_resolveName {name : String} {q : Pattern} {e : Expr}
    (hname : p.named.get? name = some q)
    (h : ∀ depth trail, p.Assembles (resolveName p.named depth trail) q e) {depth : Nat}
    {trail : List String} {t : String} (ht : resolveName p.named depth trail name = .ok t) :
    ∃ ls, t = Lexeme.join ls ∧ p.flags.StandFor ls e := by
  unfold resolveName at ht
  split at ht
  · cases ht
  · rw [hname] at ht
    cases depth with
    | zero => cases ht
    | succ depth => exact h depth _ t ht

/-- Patterns are assembled into what they stand for. -/
theorem Means.assembles {ps : List Pattern} {es : List Expr} (h : p.Means ps es) (depth : Nat)
    (trail : List String) :
    List.Forall₂ (p.Assembles (resolveName p.named depth trail)) ps es := by
  induction h generalizing depth trail with
  | nil => exact .nil
  | source hparse hplain _ ih =>
    refine .cons (fun a ha => ?_) (ih depth trail)
    obtain ⟨ls, hls, hstand⟩ := exists_standFor_source hparse hplain
    exact ⟨ls, Except.ok.inj (ha.symm.trans (hls _)), hstand⟩
  | reference hword hname _ _ ihq ih =>
    have hq (depth : Nat) (trail : List String) := (List.forall₂_cons.mp (ihq depth trail)).1
    exact .cons (fun a ha => exists_standFor_reference hword
      (fun t ht => exists_standFor_resolveName hname hq ht) ha) (ih depth trail)
  | concat _ _ ihps ih =>
    exact .cons (fun a ha => exists_standFor_concat (ihps depth trail) ha) (ih depth trail)
  | either _ _ ihps ih =>
    exact .cons (fun a ha => exists_standFor_either (ihps depth trail) ha) (ih depth trail)

/-! ### What their matchers find -/

/-- The matcher of a source that stands for an expression finds what this stands for. -/
theorem standsFor_of_matcher {pattern : Pattern} {ls : List Lexeme} {e : Expr} {m : Matcher}
    (hassemble : assemble p.named pattern = .ok (Lexeme.join ls)) (h : p.flags.StandFor ls e)
    (hm : p.matcher pattern = .ok m) : m.StandsFor e := by
  have hordinary := h.cuts_join
  obtain ⟨source, hsource, hm⟩ := bind_eq_ok.mp hm
  obtain rfl := Except.ok.inj (hassemble.symm.trans hsource)
  obtain ⟨refers, hrefers, hm⟩ := bind_eq_ok.mp hm
  obtain rfl := Except.ok.inj (hordinary.hasBackreference_eq.symm.trans hrefers)
  obtain ⟨lowered, hlowered, hm⟩ := bind_eq_ok.mp (show p.finish (Lexeme.join ls) = .ok m from hm)
  obtain rfl := Except.ok.inj (hordinary.lowerLookaheads_eq.symm.trans hlowered)
  obtain ⟨r, hr, hm⟩ := bind_eq_ok.mp hm
  cases hm
  obtain ⟨e', hparse, rfl⟩ := exists_parse?_of_compileRegex hr
  rw [Expr.parse?, Reading.finish?_eq] at hparse
  obtain ⟨w, hend, hwhole⟩ := Option.bind_eq_some_iff.mp hparse
  have hat : (Reading.start p.flags (Lexeme.join ls).toList).At p.flags (ls.flatMap (·.text)) [] :=
    ⟨rfl, by simp [Reading.start, Lexeme.join], _, w, hend⟩
  obtain ⟨r', branches, is, hpasses, hrest, -, -, -, hbranches⟩ := h.reads hat rfl fun _ => rfl
  obtain ⟨n, hend⟩ := Reading.exists_end?_of_advances hpasses.advances hend
  obtain rfl := Option.some.inj ((Reading.end?_of_rest_eq_nil hrest n).symm.trans hend)
  obtain ⟨-, rfl⟩ := Reading.of_whole? hwhole
  have hexpr : r'.group.contents.expr.Anonymized e := by
    rw [hpasses.group]
    simpa [Reading.start, Regex.OpenGroup.contents] using hbranches.anonymized
  refine ⟨rfl, ⟨_, rfl, hexpr⟩, fun t start stop hstart => ?_⟩
  rw [Regex.mem_ends_ofExpr hexpr.proper.1 _ hstart, Expr.spells_iff, Expr.spells_iff, hexpr.ways]

/-- Patterns that are no plain source themselves match what they stand for. -/
theorem Means.standsFor {pattern : Pattern} {e : Expr} {m : Matcher}
    (h : p.Means [pattern] [e])
    (hcomposed : ∀ source, pattern = .source source → p.isPlain source = false)
    (hm : p.matcher pattern = .ok m) : m.StandsFor e := by
  have hassembles {ps : List Pattern} {es : List Expr} (h : p.Means ps es) :=
    h.assembles p.named.length []
  obtain ⟨a, ha, -⟩ := bind_eq_ok.mp hm
  cases h with
  | source _ hplain => cases (hcomposed _ rfl).symm.trans hplain
  | reference hword hname hq _ =>
    have hq (depth : Nat) (trail : List String) :=
      (List.forall₂_cons.mp (hq.assembles depth trail)).1
    obtain ⟨ls, rfl, hls⟩ := exists_standFor_reference hword
      (fun t ht => exists_standFor_resolveName hname hq ht) ha
    exact standsFor_of_matcher ha hls hm
  | concat hps _ =>
    obtain ⟨ls, rfl, hls⟩ := exists_standFor_concat (hassembles hps) ha
    exact standsFor_of_matcher ha hls hm
  | either hps _ =>
    obtain ⟨ls, rfl, hls⟩ := exists_standFor_either (hassembles hps) ha
    exact standsFor_of_matcher ha hls hm

/-- Plain regular expressions pass through any pattern. By itself each is its own matcher; as a
named pattern or an operand it stands for the same, but that its groups without a name do not
record, and so does what is composed of such patterns. -/
theorem plain_passes_through (p : PatternScope) :
    (∀ source r, Regex.compile source p.ignoreCase = .ok r → p.isPlain source = true →
      p.matcher (.source source) = .ok ⟨r, []⟩ ∧
        ∃ e a, Expr.parse? p.flags source = some e ∧ r = .ofExpr source e ∧
          (∀ resolve, assembleWith resolve false (.source source) = .ok a) ∧
          p.flags.Serves a e) ∧
      ∀ pattern e m, p.Means [pattern] [e] →
        (∀ source, pattern = .source source → p.isPlain source = false) →
        p.matcher pattern = .ok m → m.StandsFor e := by
  refine ⟨fun source r hcompile hplain => ⟨p.matcher_of_isPlain hcompile hplain, ?_⟩,
    fun pattern e m => Means.standsFor⟩
  obtain ⟨e, hparse, rfl⟩ := Regex.exists_parse?_of_compile hcompile
  obtain ⟨ls, hls, hstand⟩ := exists_standFor_source hparse hplain
  exact ⟨e, _, hparse, rfl, hls, hstand.serves rfl⟩

/-- A source with groups of each kind, by itself and as a named pattern among others. -/
theorem groups_pass_through :
    ∃ (p : PatternScope) (r : Regex) (d f e : Expr) (m : Matcher),
      p = ⟨[("f", .source "(a|[](]b)+(?P<x>c)")], false⟩ ∧
      p.matcher (.source "(a|[](]b)+(?P<x>c)") = .ok ⟨r, []⟩ ∧
      Expr.parse? p.flags "(?U)d+" = some d ∧
      Expr.parse? p.flags "(a|[](]b)+(?P<x>c)" = some f ∧
      Expr.parse? p.flags "e|(g)" = some e ∧
      p.matcher (.either [.source "(?U)d+", .concat [.source (reference "f"), .source "e|(g)"]]) =
        .ok m ∧
      m.StandsFor (.choice [d, .concat [f, e]]) := by
  have hparse (source : String)
      (h : (Expr.parse? { ignoreCase := false, multiLine := true } source).isSome = true) :
      ∃ e, Expr.parse? { ignoreCase := false, multiLine := true } source = some e :=
    Option.isSome_iff_exists.mp h
  obtain ⟨r, hr, -⟩ : ∃ r, Regex.compile "(a|[](]b)+(?P<x>c)" false = .ok r ∧
      r.groupCount = 3 := exists_ok (by decide +kernel)
  obtain ⟨d, hd⟩ := hparse "(?U)d+" (by decide +kernel)
  obtain ⟨f, hf⟩ := hparse "(a|[](]b)+(?P<x>c)" (by decide +kernel)
  obtain ⟨e, he⟩ := hparse "e|(g)" (by decide +kernel)
  obtain ⟨m, hm, -⟩ : ∃ m, PatternScope.matcher ⟨[("f", .source "(a|[](]b)+(?P<x>c)")], false⟩
      (.either [.source "(?U)d+", .concat [.source (reference "f"), .source "e|(g)"]]) = .ok m ∧
      m.groupCount = 2 := exists_ok (by decide +kernel)
  have hplain : isPlain ⟨[("f", .source "(a|[](]b)+(?P<x>c)")], false⟩ "(a|[](]b)+(?P<x>c)" =
      true := by decide +kernel
  obtain ⟨hsource, hpattern⟩ :=
    plain_passes_through ⟨[("f", .source "(a|[](]b)+(?P<x>c)")], false⟩
  have hnamed : Means ⟨[("f", .source "(a|[](]b)+(?P<x>c)")], false⟩
      [.source (reference "f"), .source "e|(g)"] [f, e] :=
    .reference (by decide) rfl (.source hf hplain .nil) (.source he (by decide +kernel) .nil)
  have hmeans : Means ⟨[("f", .source "(a|[](]b)+(?P<x>c)")], false⟩
      [.either [.source "(?U)d+", .concat [.source (reference "f"), .source "e|(g)"]]]
      [.choice [d, .concat [f, e]]] :=
    .either (.source hd (by decide +kernel) (.concat hnamed .nil)) .nil
  exact ⟨_, r, d, f, e, m, rfl, (hsource _ r hr hplain).1, hd, hf, he, hm,
    hpattern _ _ m hmeans nofun hm⟩

/-- A bracket inside a class, where the pattern syntax sees an open group. -/
theorem nested_class_refused :
    ∃ r, Regex.compile "[[:alpha:](]+" false = .ok r ∧
      r.find? (.ofString "a(") 0 = some ⟨0, 2⟩ ∧
      PatternScope.matcher ⟨[], false⟩ (.source "[[:alpha:](]+") = .error .unclosedGroup := by
  obtain ⟨r, hr, hfind⟩ : ∃ r, Regex.compile "[[:alpha:](]+" false = .ok r ∧
      r.find? (.ofString "a(") 0 = some ⟨0, 2⟩ := exists_ok (by decide +kernel)
  have hassemble : assemble [] (.source "[[:alpha:](]+") = .ok "[[:alpha:](]+" := by decide +kernel
  have hrefers : hasBackreference "[[:alpha:](]+" = .ok false := by decide +kernel
  have hlower : lowerLookaheads "[[:alpha:](]+" = .error .unclosedGroup := by decide +kernel
  refine ⟨r, hr, hfind, ?_⟩
  simp only [matcher, hassemble, bind, Except.bind, hrefers, finish, hlower, Bool.false_eq_true,
    if_false]

end PatternScope
end Tinct
