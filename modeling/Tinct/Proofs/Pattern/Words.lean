import Tinct.Proofs.Pattern.Captures
import Tinct.Proofs.Pattern.Plain
import Tinct.Proofs.Text.Offsets
import Tinct.Proofs.Regex.Acceptance
import Tinct.Proofs.Regex.Proper

/-!
# Lists of words

The matcher of a list of words comes from a source in which the words are escaped, with bars
between and word boundaries around:

* `Regex.Reading.steps_alternation`: how the words are read, each as a branch of its own;
* `PatternScope.Spells`: the texts that a word spells;
* `PatternScope.mem_ends_words`: the matches are the texts that the words spell between two word
  boundaries;
* `PatternScope.exists_spells_of_find?`: what is found spells one of the words;
* `PatternScope.find?_word`: a word of word characters is found as a whole.
-/

namespace Tinct
namespace Regex
variable {r : Reading} {w more : List Char} {words : List (List Char)}

/-! ## Reading the words -/

/-- Texts with bars between, as they are spliced into a source. -/
def alternation (words : List (List Char)) : List Char :=
  List.intercalate ['|'] (words.map escaped)

theorem alternation_cons (w : List Char) (hne : words ≠ []) :
    alternation (w :: words) = escaped w ++ '|' :: alternation words := by
  obtain ⟨w', ws, rfl⟩ := List.exists_cons_of_ne_nil hne
  rw [alternation, List.map_cons, List.map_cons, List.intercalate_cons_cons]
  simp [alternation]

/-- What the branches of a group stand for, the current one first. -/
def OpenGroup.branches (g : OpenGroup) : List Expr :=
  (Item.sequence g.items.reverse :: g.alternatives).map (·.expr)

/-- The group with some branches more. -/
structure OpenGroup.Adds (es : List Expr) (g h : OpenGroup) : Prop where
  outside : h.outside = g.outside
  number? : h.number? = g.number?
  branches : h.branches = es.reverse ++ g.alternatives.map (·.expr)

/-- What has been read in a group that began empty is the choice between its branches. -/
theorem OpenGroup.Adds.contents {g h : OpenGroup} {is : List Item}
    (hadds : g.Adds (is.map (·.expr)) h) (hg : g.alternatives = []) :
    h.contents.expr = (Item.choice is).expr := by
  refine Item.choice_congr ?_
  have hbranches : h.branches = (is.map (·.expr)).reverse := by
    rw [hadds.branches, hg, List.map_nil, List.append_nil]
  rw [List.map_reverse]
  exact (congrArg List.reverse hbranches).trans (List.reverse_reverse _)

namespace Reading

/-- A word is read as a branch. -/
theorem steps_word (hrest : r.rest = escaped w ++ more) (hitems : r.group.items = [])
    (hblanks : r.flags.verbose = false) :
    ∃ g : OpenGroup, Relation.ReflTransGen Step r { r with rest := more, group := g } ∧
      r.group.Adds ([r.flags.unit w].map (·.expr)) g := by
  refine ⟨_, steps_escaped hrest hblanks, rfl, rfl, ?_⟩
  rw [hitems, OpenGroup.branches, List.map_cons, List.append_nil, List.reverse_reverse,
    Item.sequence_expr, List.map_map]
  · rfl
  · exact List.forall_mem_map.mpr fun c _ => r.flags.charExpr_simple c

/-- Words are read up to the end of the last one, each as a branch. -/
theorem steps_alternation (hne : words ≠ []) (hrest : r.rest = alternation words ++ more)
    (hitems : r.group.items = []) (hblanks : r.flags.verbose = false) :
    ∃ g : OpenGroup, Relation.ReflTransGen Step r { r with rest := more, group := g } ∧
      r.group.Adds ((words.map r.flags.unit).map (·.expr)) g := by
  induction words generalizing r with
  | nil => exact absurd rfl hne
  | cons w words ih =>
    by_cases hlast : words = []
    · subst hlast
      have hrest' : r.rest = escaped w ++ more := by simpa [alternation] using hrest
      exact steps_word hrest' hitems hblanks
    · rw [alternation_cons w hlast, List.append_assoc, List.cons_append] at hrest
      obtain ⟨g, hword, hadds⟩ := steps_word hrest hitems hblanks
      let behind : OpenGroup :=
        { g with alternatives := .sequence g.items.reverse :: g.alternatives, items := [] }
      have hbar : Step { r with rest := '|' :: (alternation words ++ more), group := g }
          { r with rest := alternation words ++ more, group := behind } := step_bar rfl hblanks
      obtain ⟨h, hwords, hadds'⟩ := ih hlast
        (r := { r with rest := alternation words ++ more, group := behind }) rfl rfl hblanks
      refine ⟨h, (hword.tail hbar).trans hwords, ?_, ?_, ?_⟩
      · exact hadds'.outside.trans hadds.outside
      · exact hadds'.number?.trans hadds.number?
      · have hbranches : h.branches = _ ++ g.branches := hadds'.branches
        rw [hbranches, hadds.branches]
        simp

end Reading

/-! ## Choices between elements -/

namespace Item
variable {is : List Item}

/-- A choice between elements stands for what any of them stands for. -/
theorem spells_choice {t : Text} (hne : is ≠ []) (hproper : ∀ i ∈ is, i.expr.Proper)
    (start stop : Nat) :
    (choice is).expr.Spells t start stop ↔ ∃ i ∈ is, i.expr.Spells t start stop := by
  simp only [Expr.spells_iff, ways_choice hproper hne]
  constructor
  · rintro ⟨taken, i, hi, h⟩
    exact ⟨i, hi, taken, h⟩
  · rintro ⟨i, hi, taken, h⟩
    exact ⟨taken, i, hi, h⟩

end Item

/-! ## Whole words -/

/-- The source of whole words. -/
def wholeWords (words : List (List Char)) : List Char :=
  ['\\', 'b', '(', '?', ':'] ++ alternation words ++ [')', '\\', 'b']

/-- What the source of whole words stands for. -/
def Flags.wholeWords (f : Flags) (words : List (List Char)) : Expr :=
  .concat [.look (.wordBoundary false), (Item.choice (words.map f.unit)).expr,
    .look (.wordBoundary false)]

end Regex

namespace PatternScope
open Regex
variable {p : PatternScope} {words : List (List Char)} {source : String}

/-- Whole words are read as a choice between two word boundaries. -/
theorem parse?_wholeWords {e : Expr} (hne : words ≠ []) (hsource : source.toList = wholeWords words)
    (h : Expr.parse? p.flags source = some e) : e = p.flags.wholeWords words := by
  let boundary : Item := ⟨.look (.wordBoundary false), 0, true⟩
  let around : OpenGroup := OpenGroup.add ⟨p.flags, none, [], []⟩ boundary
  let inside (cs : List Char) (g : OpenGroup) : Reading := ⟨cs, p.flags, g, [around], 0, []⟩
  have hboundary : Reading.Step (.start p.flags source.toList)
      ⟨['(', '?', ':'] ++ (alternation words ++ [')', '\\', 'b']), p.flags, around, [], 0, []⟩ := by
    rw [hsource]
    exact ⟨nofun, rfl, rfl⟩
  -- the words are read in a group of their own, which does not record
  have hopen : Reading.Step
      ⟨['(', '?', ':'] ++ (alternation words ++ [')', '\\', 'b']), p.flags, around, [], 0, []⟩
      (inside (alternation words ++ [')', '\\', 'b']) ⟨p.flags, none, [], []⟩) :=
    Reading.step_opener rfl rfl
  obtain ⟨g, hwords, hadds⟩ := Reading.steps_alternation hne
    (r := inside (alternation words ++ [')', '\\', 'b']) ⟨p.flags, none, [], []⟩) rfl rfl rfl
  let body : Item := ⟨g.contents.expr, g.contents.height + 1, true⟩
  have hclose : Reading.Step (inside [')', '\\', 'b'] g)
      ⟨['\\', 'b'], p.flags, around.add body, [], 0, []⟩ := by
    have hclose := Reading.step_close (r := inside [')', '\\', 'b'] g) rfl rfl rfl hadds.number?
    rwa [hadds.outside] at hclose
  have hlast : Reading.Step ⟨['\\', 'b'], p.flags, around.add body, [], 0, []⟩
      ⟨[], p.flags, (around.add body).add boundary, [], 0, []⟩ := ⟨nofun, rfl, rfl⟩
  have hsteps := (((Relation.ReflTransGen.single hboundary).tail hopen).trans hwords).tail hclose
  obtain ⟨-, rfl⟩ := Reading.of_whole? (Reading.whole?_of_parse? (hsteps.tail hlast) rfl h)
  have hbody : g.contents.expr = (Item.choice (words.map p.flags.unit)).expr := hadds.contents rfl
  exact congrArg (fun b => Expr.concat [.look (.wordBoundary false), b, .look _]) hbody

/-- An escaped text is read as the text. -/
theorem parse?_escape {e : Expr} {text : String} (h : Expr.parse? p.flags (escape text) = some e) :
    e = (p.flags.unit text.toList).expr := by
  have hrest : (Reading.start p.flags (escape text).toList).rest =
      escaped text.toList ++ [] := by
    rw [Reading.start, toList_escape, List.append_nil]
  obtain ⟨g, hword, hadds⟩ := Reading.steps_word hrest rfl rfl
  obtain ⟨-, rfl⟩ := Reading.of_whole? (Reading.whole?_of_parse? hword rfl h)
  exact hadds.contents rfl

/-! ## What the words stand for -/

/-- A character of a text stands for one of a word: it is the same one, or at most differs by case
where case is ignored. -/
def Takes (p : PatternScope) (c d : Char) : Prop :=
  if p.ignoreCase then (Unicode.foldCase (.singleton c)).contains d = true else d = c

/-- The text is the word, but for case where that is ignored. -/
def Spells (p : PatternScope) (word text : String) : Prop :=
  List.Forall₂ p.Takes word.toList text.toList

theorem charExpr_eq (p : PatternScope) (c : Char) : p.flags.charExpr c =
    if p.ignoreCase then .ofSet (Unicode.foldCase (.singleton c)) else .literal [c] := by
  have hcase : p.flags.ignoreCase = p.ignoreCase := rfl
  have hunicode : p.flags.unicode = true := rfl
  rw [Flags.charExpr, hcase, if_pos hunicode]
  cases p.ignoreCase <;> rfl

theorem contains_foldCase_self (c : Char) : (Unicode.foldCase (.singleton c)).contains c = true :=
  (Unicode.contains_foldCase (CharSet.sorted_singleton c)).mpr
    ⟨c.toNat, c.toNat, CharSet.has_singleton.mpr rfl, .inl rfl, .inl rfl⟩

theorem proper_foldCase (c : Char) : (Expr.set (Unicode.foldCase (.singleton c))).Proper :=
  Expr.proper_set_of_contains (Unicode.sorted_foldCase (CharSet.sorted_singleton c))
    (contains_foldCase_self c)

theorem takes_self (p : PatternScope) (c : Char) : p.Takes c c := by
  unfold Takes
  split
  · exact contains_foldCase_self c
  · rfl

theorem spells_self (p : PatternScope) (word : String) : p.Spells word word :=
  List.forall₂_same.mpr fun c _ => p.takes_self c

theorem eq_of_spells {word text : String} (h : p.Spells word text) (hcase : p.ignoreCase = false) :
    text = word := by
  have htakes (c d : Char) : p.Takes c d → c = d := by
    rw [Takes, hcase, if_neg Bool.false_ne_true]
    exact Eq.symm
  exact (String.toList_inj.mp (List.forall₂_eq_eq_eq ▸ h.imp htakes)).symm

theorem map_toLower_eq_of_takes {cs ds : List Char} (h : List.Forall₂ p.Takes cs ds)
    (hcs : ∀ c ∈ cs, c.toNat < 0x80) (hds : ∀ d ∈ ds, d.toNat < 0x80) :
    ds.map Char.toLower = cs.map Char.toLower := by
  induction h with
  | nil => rfl
  | @cons c d cs ds htakes _ ih =>
    obtain ⟨hc, hcs⟩ := List.forall_mem_cons.mp hcs
    obtain ⟨hd, hds⟩ := List.forall_mem_cons.mp hds
    have hlower : d.toLower = c.toLower := by
      unfold Takes at htakes
      split at htakes
      · exact Unicode.toLower_eq_of_contains hc hd htakes
      · rw [htakes]
    rw [List.map_cons, List.map_cons, hlower, ih hcs hds]

/-- An ASCII text that an ASCII word spells has its lower-case form. -/
theorem lowercase_eq_of_spells {word text : String} (h : p.Spells word text)
    (hascii : ∀ c ∈ word.toList ++ text.toList, c.toNat < 0x80) :
    Unicode.lowercase text = Unicode.lowercase word := by
  obtain ⟨hword, htext⟩ := List.forall_mem_append.mp hascii
  rw [Unicode.lowercase_ascii htext, Unicode.lowercase_ascii hword,
    map_toLower_eq_of_takes h hword htext]

theorem proper_charExpr (p : PatternScope) (c : Char) : (p.flags.charExpr c).Proper := by
  rw [charExpr_eq]
  split
  · exact Expr.proper_ofSet (proper_foldCase c).1
  · exact trivial

theorem spells_charExpr (p : PatternScope) (t : Text) (c : Char) (i j : Nat) :
    (p.flags.charExpr c).Spells t i j ↔ (∃ d, t.after? i = some d ∧ p.Takes c d) ∧ i + 1 = j := by
  rw [charExpr_eq]
  unfold Takes
  have hproper := proper_foldCase c
  generalize Unicode.foldCase (.singleton c) = s at hproper
  cases p.ignoreCase with
  | false => simp [Expr.Spells, Expr.Reads]
  | true =>
    rw [if_pos rfl, Expr.spells_ofSet hproper]
    cases h : t.after? i with
    | none => simp [Expr.Spells, h]
    | some d => simp [Expr.Spells, h]

/-- A word as one element stands for the texts that spell it. -/
theorem spells_unit (p : PatternScope) (t : Text) (cs : List Char) (i j : Nat) :
    (p.flags.unit cs).expr.Spells t i j ↔
      ∃ ds, List.Forall₂ p.Takes cs ds ∧ Expr.Reads t ds i j := by
  refine (Expr.spells_concat _ i j).trans ?_
  induction cs generalizing i with
  | nil =>
    refine ⟨fun h => ⟨[], .nil, h⟩, ?_⟩
    rintro ⟨_, hnil, h⟩
    cases hnil
    exact h
  | cons c cs ih =>
    simp only [List.map_cons, Expr.SpellsAll, spells_charExpr, ih]
    constructor
    · rintro ⟨_, ⟨⟨d, hd, htakes⟩, rfl⟩, ds, hds, hreads⟩
      exact ⟨d :: ds, .cons htakes hds, hd, hreads⟩
    · rintro ⟨_, hds, hreads⟩
      cases hds with
      | cons htakes hds => exact ⟨i + 1, ⟨⟨_, hreads.1, htakes⟩, rfl⟩, _, hds, hreads.2⟩

theorem proper_unit (p : PatternScope) (cs : List Char) : (p.flags.unit cs).expr.Proper :=
  Expr.proper_concat (List.forall_mem_map.mpr fun c _ => p.proper_charExpr c)

theorem proper_wholeWords (p : PatternScope) (words : List (List Char)) :
    (p.flags.wholeWords words).Proper := by
  have hunits : ∀ i ∈ words.map p.flags.unit, i.expr.Proper :=
    List.forall_mem_map.mpr fun w _ => p.proper_unit w
  have hwords := Item.proper_choice hunits
  exact Expr.proper_concat (by simpa [Expr.Proper] using hwords)

/-- Whole words stand for the words between two word boundaries. -/
theorem spells_wholeWords {t : Text} (hne : words ≠ []) {i j : Nat} (hij : i ≤ j)
    (hj : j ≤ t.size) :
    (p.flags.wholeWords words).Spells t i j ↔ (Look.wordBoundary false).holds t i = true ∧
      (∃ w ∈ words, List.Forall₂ p.Takes w (t.extract ⟨i, j⟩).toList) ∧
        (Look.wordBoundary false).holds t j = true := by
  have hwords (k l : Nat) : (Item.choice (words.map p.flags.unit)).expr.Spells t k l ↔
      ∃ w ∈ words, ∃ ds, List.Forall₂ p.Takes w ds ∧ Expr.Reads t ds k l := by
    have hproper : ∀ i ∈ words.map p.flags.unit, i.expr.Proper :=
      List.forall_mem_map.mpr fun w _ => p.proper_unit w
    rw [Item.spells_choice (by simpa using hne) hproper]
    simp only [List.mem_map, exists_exists_and_eq_and, spells_unit]
  rw [Flags.wholeWords, Expr.spells_concat]
  simp only [Expr.SpellsAll, hwords]
  constructor
  · rintro ⟨_, ⟨hfront, rfl⟩, _, ⟨w, hw, ds, hds, hreads⟩, _, ⟨hbehind, rfl⟩, rfl⟩
    rw [Expr.reads_iff_extract hij hj] at hreads
    exact ⟨hfront, ⟨w, hw, hreads ▸ hds⟩, hbehind⟩
  · rintro ⟨hfront, ⟨w, hw, hds⟩, hbehind⟩
    exact ⟨i, ⟨hfront, rfl⟩, j, ⟨w, hw, _, hds, (Expr.reads_iff_extract hij hj).mpr rfl⟩, j,
      ⟨hbehind, rfl⟩, rfl⟩

/-! ## The matcher -/

section matcher
variable {ws : List String} {m : Matcher} {t : Text} {start stop : Nat} {allowEmpty : Bool}

/-- What the matcher of a list of words is made of. -/
theorem words_eq_ok (h : p.words ws = .ok m) : ws ≠ [] ∧
    ∃ source, m = ⟨.ofExpr source (p.flags.wholeWords (ws.map String.toList)),
      [⟨.ofExpr "\\." (p.flags.unit ['.']).expr, true⟩]⟩ := by
  unfold PatternScope.words at h
  split at h
  · cases h
  rename_i hempty
  have hne : ws ≠ [] := fun hnil => hempty (List.isEmpty_iff.mpr hnil)
  obtain ⟨r, hr, h⟩ := bind_eq_ok.mp h
  obtain ⟨f, hf, h⟩ := bind_eq_ok.mp h
  cases h
  obtain ⟨e, hparse, rfl⟩ := exists_parse?_of_compileRegex hr
  have hsource : ("\\b(?:" ++ "|".intercalate (ws.map escape) ++ ")\\b").toList =
      wholeWords (ws.map String.toList) := by
    rw [String.toList_append, String.toList_append, String.toList_intercalate, wholeWords,
      alternation, List.map_map, List.map_map]
    simp only [Function.comp_def, toList_escape]
    rfl
  obtain rfl := parse?_wholeWords (by simpa using hne) hsource hparse
  unfold follow at hf
  split at hf
  · rename_i hcompile
    cases hf
    obtain ⟨e', hparse', rfl⟩ := exists_parse?_of_compile hcompile
    have hdot : Expr.parse? p.flags (escape ".") = some e' := hparse'
    obtain rfl := parse?_escape hdot
    exact ⟨hne, _, rfl⟩
  · cases hf

/-- The matches of a list of words, wherever they are asked for. -/
theorem mem_ends_words (h : p.words ws = .ok m) (hle : start ≤ stop) (hstop : stop ≤ t.size) :
    stop ∈ m.regex.ends t start ↔ (Look.wordBoundary false).holds t start = true ∧
      (∃ w ∈ ws, p.Spells w (t.extract ⟨start, stop⟩)) ∧
        (Look.wordBoundary false).holds t stop = true := by
  obtain ⟨hne, source, rfl⟩ := words_eq_ok h
  have hne' : ws.map String.toList ≠ [] := by simpa using hne
  rw [mem_ends_ofExpr (p.proper_wholeWords _) source (Nat.le_trans hle hstop),
    spells_wholeWords hne' hle hstop]
  simp only [List.mem_map, exists_exists_and_eq_and, Spells]

/-- What the matcher of a list of words finds is one of them. -/
theorem exists_spells_of_find? (h : p.words ws = .ok m) {s : Span}
    (hs : m.find? t start allowEmpty = some s) : ∃ w ∈ ws, p.Spells w (t.extract s) := by
  obtain ⟨-, hle, hstop⟩ := Matcher.find?_bounds hs
  obtain ⟨f, hf, hfstop, -⟩ := Matcher.exists_looksAt_of_find? hs
  have hmem : s.stop ∈ m.regex.ends t s.start := by
    rw [← Regex.map_stop_finishes, ← hfstop]
    exact List.mem_map_of_mem hf.mem
  exact ((mem_ends_words h hle hstop).mp hmem).2.1

/-- Behind the end of a text nothing follows. -/
theorem followsHold_size (h : p.words ws = .ok m) (t : Text) : m.followsHold t t.size = true := by
  obtain ⟨-, source, rfl⟩ := words_eq_ok h
  have hends : (Regex.ofExpr "\\." (p.flags.unit ['.']).expr).ends t t.size = [] := by
    refine List.eq_nil_iff_forall_not_mem.mpr fun stop hmem => ?_
    rw [mem_ends_ofExpr (p.proper_unit _) _ (Nat.le_refl _), spells_unit] at hmem
    obtain ⟨ds, hds, hreads⟩ := hmem
    cases hds with
    | cons _ _ =>
      have hnone : t.after? t.size = none := Array.getElem?_eq_none (Nat.le_refl _)
      cases hnone.symm.trans hreads.1
  rw [Matcher.followsHold, List.all_cons, List.all_nil, Bool.and_true, Follow.holds,
    Regex.matchesAt, Regex.endFrom?_eq _ (Nat.le_refl _) (Nat.le_refl _), hends]
  rfl

/-- The only word boundaries of a text of word characters are its ends. -/
theorem wordBoundary_iff {i : Nat} (hword : ∀ c ∈ t.chars.toList, isWord false c = true)
    (hi : i ≤ t.size) :
    (Look.wordBoundary false).holds t i = true ↔ t.size ≠ 0 ∧ (i = 0 ∨ i = t.size) := by
  have hchar (k : Nat) : (t.chars[k]?).any (isWord false) = decide (k < t.size) := by
    by_cases hk : k < t.size
    · rw [Array.getElem?_eq_getElem hk, Option.any_some, decide_eq_true hk]
      exact hword _ (Array.mem_toList_iff.mpr (Array.getElem_mem hk))
    · rw [Array.getElem?_eq_none (Nat.le_of_not_lt hk), Option.any_none, decide_eq_false hk]
  have hbefore : (t.before? i).any (isWord false) = decide (0 < i) := by
    cases i with
    | zero => rfl
    | succ k => exact (hchar k).trans (decide_eq_decide.mpr (by omega))
  have hafter : (t.after? i).any (isWord false) = decide (i < t.size) := hchar i
  rw [Look.holds, hbefore, hafter, bne_iff_ne, ne_eq, decide_eq_decide]
  omega

/-- No match at the start of a word ends in front of the end of it. -/
theorem eq_size_of_mem_ends {w : String} (h : p.words ws = .ok m) (hws : ∀ w ∈ ws, w ≠ "")
    (hword : ∀ c ∈ w.toList, isWord false c = true) (hstop : stop ∈ m.regex.ends (.ofString w) 0) :
    stop = (Text.ofString w).size := by
  have hwordt : ∀ c ∈ (Text.ofString w).chars.toList, isWord false c = true := hword
  have hle := (Regex.ends_bounds hstop (Nat.zero_le _)).2
  obtain ⟨-, ⟨w', hw', hspells⟩, hboundary⟩ := (mem_ends_words h (Nat.zero_le _) hle).mp hstop
  obtain ⟨-, rfl | rfl⟩ := (wordBoundary_iff hwordt hle).mp hboundary
  · have hempty : ((Text.ofString w).extract ⟨0, 0⟩).toList = [] := by simp [Text.extract]
    rw [Spells, hempty] at hspells
    have hw'' : w' = "" := by simpa using List.forall₂_nil_right_iff.mp hspells
    exact absurd hw'' (hws w' hw')
  · rfl

theorem head?_ends_word {w : String} (h : p.words ws = .ok m) (hws : ∀ w ∈ ws, w ≠ "")
    (hw : w ∈ ws) (hword : ∀ c ∈ w.toList, isWord false c = true) :
    (m.regex.ends (.ofString w) 0).head? = some (Text.ofString w).size := by
  have hwordt : ∀ c ∈ (Text.ofString w).chars.toList, isWord false c = true := hword
  have hsize : (Text.ofString w).size ≠ 0 := by
    have hne := hws w hw
    simpa [Text.size, Text.ofString] using hne
  have hmem : (Text.ofString w).size ∈ m.regex.ends (.ofString w) 0 := by
    refine (mem_ends_words h (Nat.zero_le _) (Nat.le_refl _)).mpr ⟨?_, ⟨w, hw, ?_⟩, ?_⟩
    · exact (wordBoundary_iff hwordt (Nat.zero_le _)).mpr ⟨hsize, .inl rfl⟩
    · rw [Text.extract_ofString]
      exact p.spells_self w
    · exact (wordBoundary_iff hwordt (Nat.le_refl _)).mpr ⟨hsize, .inr rfl⟩
  obtain ⟨stop, rest, hcons⟩ := List.exists_cons_of_ne_nil (List.ne_nil_of_mem hmem)
  have hstop : stop ∈ m.regex.ends (.ofString w) 0 := hcons ▸ .head _
  rw [hcons, List.head?_cons, eq_size_of_mem_ends h hws hword hstop]

/-- A word of word characters is found as a whole where it is all of the text. -/
theorem find?_word {w : String} (h : p.words ws = .ok m) (hws : ∀ w ∈ ws, w ≠ "") (hw : w ∈ ws)
    (hword : ∀ c ∈ w.toList, isWord false c = true) :
    m.find? (.ofString w) 0 allowEmpty = some ⟨0, (Text.ofString w).size⟩ := by
  have hhead := head?_ends_word h hws hw hword
  have hpositive : 0 < (Text.ofString w).size := by
    have hne := hws w hw
    exact Nat.pos_of_ne_zero (by simpa [Text.size, Text.ofString] using hne)
  have haccepted : m.acceptedFrom? (.ofString w) allowEmpty 0 = some (Text.ofString w).size := by
    rw [Matcher.acceptedFrom?, Regex.endAt?, if_pos (Nat.succ_pos _), hhead, Option.bind_some]
    unfold Matcher.acceptedEnd?
    rw [followsHold_size h, decide_eq_true hpositive, Bool.or_true, Bool.true_and, if_pos rfl]
  refine (m.isFirst_find? _ allowEmpty 0).unique ⟨Nat.le_refl _, haccepted, ?_⟩
  exact fun k _ hk => absurd hk (Nat.not_lt_zero k)

end matcher

end PatternScope
end Tinct
