import Mathlib.Data.List.TakeWhile
import Tinct.Proofs.Grammar.Declared
import Tinct.Proofs.Pattern.Words

/-!
# Words that modes begin at

A mode that begins at words takes these for keywords too, unless it lists keywords of its own:

* `KeywordTable.lookup_add`: what a table finds once a list of words has been added;
* `Mode.BeginsAt`: the begins of a mode that begins at words;
* `Grammar.beginKeywords_agree`: what begins the regions of such a mode spells a word of the list,
  and where the mode has no keywords of its own, it is a keyword.
-/

namespace Tinct

theorem ne_empty_of_mem_splitWordsFrom {word cs : List Char} {w : String}
    (h : w ∈ splitWordsFrom word cs) : w ≠ "" := by
  have hofList {cs : List Char} (hcs : ¬cs.isEmpty = true) : String.ofList cs.reverse ≠ "" := by
    intro hempty
    exact hcs (by simpa using congrArg String.toList hempty)
  fun_induction splitWordsFrom word cs with
  | case1 => cases h
  | case2 word hword =>
    cases List.mem_singleton.mp h
    exact hofList hword
  | case3 _ _ _ _ _ ih => exact ih h
  | case4 word c cs _ hword ih =>
    cases h with
    | head => exact hofList hword
    | tail _ h => exact ih h
  | case5 _ _ _ _ ih => exact ih h

/-- No word of a text is empty. -/
theorem ne_empty_of_mem_splitWords {s w : String} (h : w ∈ splitWords s) : w ≠ "" :=
  ne_empty_of_mem_splitWordsFrom h

namespace KeywordTable
variable {t t' : KeywordTable} {category : Scope} {entry word : String} {weight : Nat}

/-- What an entry of a list spells, in front of its weight. -/
def spelling (entry : String) : String := .ofList (entry.toList.takeWhile (· != '|'))

theorem spelling_eq (h : '|' ∉ entry.toList) : spelling entry = entry := by
  have hall : ∀ c ∈ entry.toList, (c != '|') = true := fun c hc =>
    bne_iff_ne.mpr fun heq => h (heq ▸ hc)
  rw [spelling, List.takeWhile_eq_self_iff.mpr hall, String.ofList_toList]

theorem readEntry_eq_ok (h : readEntry entry = .ok (word, weight)) : word = spelling entry := by
  unfold readEntry at h
  obtain ⟨n, -, h⟩ := bind_eq_ok.mp h
  split at h
  · cases h
  · cases h
    rfl

/-- A table to which words have been added finds these and what it found before. -/
theorem get?_addEntries {entries : List String} (h : t.addEntries category entries = (t', none)) :
    t'.ignoreCase = t.ignoreCase ∧ ∀ key, (t'.entries.get? key).isSome ↔
      (∃ e ∈ entries, t.fold (spelling e) = key) ∨ (t.entries.get? key).isSome := by
  induction entries generalizing t with
  | nil =>
    cases h
    exact ⟨rfl, fun key => by simp⟩
  | cons e es ih =>
    unfold addEntries at h
    split at h
    · cases h
    · rename_i word weight hread
      obtain ⟨hcase, hget⟩ := ih h
      refine ⟨hcase, fun key => ?_⟩
      have hput : ((t.entries.put (t.fold word) ⟨category, weight⟩).get? key).isSome ↔
          t.fold (spelling e) = key ∨ (t.entries.get? key).isSome := by
        rw [Entries.get?_put, ← readEntry_eq_ok hread]
        split
        · rename_i hkey
          exact ⟨fun _ => .inl hkey.symm, fun _ => rfl⟩
        · rename_i hkey
          exact ⟨.inr, fun h => h.resolve_left (Ne.symm hkey)⟩
      rw [hget, hput, List.exists_mem_cons_iff, or_assoc]
      exact or_left_comm

/-- A table with a list of words finds what they spell. -/
theorem lookup_add {words : String} (ht : t.entries = [])
    (h : t.add category words = (t', none)) (lexeme : String) : (t'.lookup lexeme).isSome ↔
      ∃ e ∈ splitWords words, t.fold (spelling e) = t.fold lexeme := by
  obtain ⟨hcase, hget⟩ := get?_addEntries h
  have hfold : t'.fold lexeme = t.fold lexeme := by rw [fold, fold, hcase]
  rw [lookup, hfold, hget, ht]
  simp

end KeywordTable

/-! ## Modes -/

namespace GrammarDef
variable {d : GrammarDef} {md : ModeDef} {label words : String} {begin : Matcher}

theorem ownBegin_eq_ok {own : Option Matcher} (hwords : md.beginKeywords = some words)
    (h : d.ownBegin md = .ok own) :
    ∃ begin, own = some begin ∧ d.patternScope.words (splitWords words) = .ok begin := by
  unfold ownBegin at h
  rw [hwords] at h
  obtain ⟨begin, hbegin, h⟩ := bind_eq_ok.mp h
  cases h
  exact ⟨begin, rfl, mapError_eq_ok.mp hbegin⟩

/-- A variant without a begin has that of the mode. -/
theorem begin_of_variant {vd : VariantDef} {v : Variant} (hvd : vd.begin.or vd.matched = none)
    (h : d.variant md (some begin) label vd = .ok v) : v.begin = begin := by
  unfold variant at h
  rw [hvd] at h
  dsimp only at h
  split at h
  · cases h
  obtain ⟨⟨_, isMatch⟩, heq, h⟩ := bind_eq_ok.mp h
  cases heq
  dsimp only at h
  split at h
  · cases h
  obtain ⟨finish, -, h⟩ := bind_eq_ok.mp h
  cases h
  rfl

end GrammarDef

/-- The regions of a mode begin where the matcher does, but for variants with a begin of their
own. -/
structure Mode.BeginsAt (md : ModeDef) (m : Mode) (begin : Matcher) : Prop where
  only : md.variants = [] → m.variants.map (·.begin) = [begin]
  variant : ∀ (i : Nat) (vd : VariantDef) (v : Variant), md.variants[i]? = some vd →
    m.variants[i]? = some v → vd.begin.or vd.matched = none → v.begin = begin

theorem Mode.beginsAt_of_variants {d : GrammarDef} {md : ModeDef} {m : Mode} {label words : String}
    (hwords : md.beginKeywords = some words) (h : d.variants md label = .ok m.variants) :
    ∃ begin, d.patternScope.words (splitWords words) = .ok begin ∧ m.BeginsAt md begin := by
  unfold GrammarDef.variants at h
  dsimp only at h
  split at h
  · cases h
  split at h
  · cases h
  obtain ⟨own, hown, h⟩ := bind_eq_ok.mp h
  obtain ⟨begin, rfl, hbegin⟩ := GrammarDef.ownBegin_eq_ok hwords hown
  refine ⟨begin, hbegin, ?_⟩
  split at h
  · rename_i hempty
    have hnil : md.variants = [] := List.isEmpty_iff.mp hempty
    obtain ⟨begin', heq, h⟩ := bind_eq_ok.mp h
    cases heq
    obtain ⟨finish, -, h⟩ := bind_eq_ok.mp h
    have hvariants : [⟨begin, finish⟩] = m.variants := Except.ok.inj h
    refine ⟨fun _ => by rw [← hvariants]; rfl, fun i vd v hvd => ?_⟩
    rw [hnil] at hvd
    cases hvd
  · rename_i hnonempty
    refine ⟨fun hnil => absurd (List.isEmpty_iff.mpr hnil) hnonempty, fun i vd v hvd hv hnone => ?_⟩
    obtain ⟨vd', hvd', hvariant⟩ := mapM_getElem? h hv
    cases hvd.symm.trans hvd'
    exact GrammarDef.begin_of_variant hnone hvariant

namespace GrammarDef
variable {d : GrammarDef} {md : ModeDef} {words : String} {keywords : Option KeywordTable}

/-- Keywords of its own are all keywords of a mode. -/
theorem ownKeywords_of_keywords {k : KeywordsDef} (hk : md.keywords = some k)
    (h : d.ownKeywords md = .ok keywords) :
    ∃ table, d.keywordTable k = .ok table ∧ keywords = some table := by
  unfold ownKeywords at h
  rw [hk] at h
  obtain ⟨table, htable, h⟩ := bind_eq_ok.mp h
  cases h
  exact ⟨table, htable, rfl⟩

/-- The words that a mode begins at are found in its table, if it lists no keywords of its own. -/
theorem lookup_of_ownKeywords (hk : md.keywords = none) (hwords : md.beginKeywords = some words)
    (h : d.ownKeywords md = .ok keywords) : ∃ table, keywords = some table ∧
      table.ignoreCase = d.caseInsensitive ∧ ∀ lexeme, (table.lookup lexeme).isSome ↔
        ∃ e ∈ splitWords words, table.fold (KeywordTable.spelling e) = table.fold lexeme := by
  unfold ownKeywords at h
  rw [hk, hwords] at h
  obtain ⟨table, htable, h⟩ := bind_eq_ok.mp h
  cases h
  unfold addWords at htable
  split at htable
  · rename_i hadd
    cases htable
    obtain ⟨hcase, -⟩ := KeywordTable.get?_addEntries hadd
    refine ⟨_, rfl, hcase, fun lexeme => ?_⟩
    rw [KeywordTable.lookup_add rfl hadd]
    simp only [KeywordTable.fold, hcase]
  · cases htable

end GrammarDef

/-- A text that a word spells is kept as the word is, where case counts or where the lower-case
forms are the same, as they are of ASCII texts. -/
theorem KeywordTable.fold_eq_of_spells {p : PatternScope} {table : KeywordTable}
    {word text : String} (hcase : table.ignoreCase = p.ignoreCase) (h : p.Spells word text)
    (hlower : p.ignoreCase = true → Unicode.lowercase text = Unicode.lowercase word ∨
      ∀ c ∈ word.toList ++ text.toList, c.toNat < 0x80) :
    table.fold word = table.fold text := by
  rw [fold, fold, hcase]
  cases hp : p.ignoreCase with
  | false => rw [PatternScope.eq_of_spells h hp]
  | true =>
    have hsame : Unicode.lowercase text = Unicode.lowercase word :=
      (hlower hp).elim id (PatternScope.lowercase_eq_of_spells h)
    rw [if_pos rfl, if_pos rfl, hsame]

/-- What begins the regions of a mode that begins at words spells one of the words, and unless the
mode has keywords of its own, it is a keyword; and every word is found as a whole. -/
theorem Grammar.beginKeywords_agree {d : GrammarDef} {g : Grammar} (hg : compile d = .ok g)
    {i : Nat} {m : Mode} (hm : g.modes[i]? = some m) :
    m.Declared d ∧ ∀ md words, m.Realizes d md → md.beginKeywords = some words →
      (∀ k, md.keywords = some k → d.keywordTable k = .ok (g.effectiveKeywords m).1) ∧
      ∃ begin, m.BeginsAt md begin ∧
        (∀ t start allowEmpty s, begin.find? t start allowEmpty = some s →
          (∃ w ∈ splitWords words, d.patternScope.Spells w (t.extract s)) ∧
          ∀ w ∈ splitWords words, d.patternScope.Spells w (t.extract s) →
            md.keywords = none → '|' ∉ w.toList →
            (d.caseInsensitive = true →
              Unicode.lowercase (t.extract s) = Unicode.lowercase w ∨
                ∀ c ∈ w.toList ++ (t.extract s).toList, c.toNat < 0x80) →
            ((g.effectiveKeywords m).1.lookup (t.extract s)).isSome) ∧
        ∀ w ∈ splitWords words, (∀ c ∈ w.toList, Regex.isWord false c = true) →
          ∀ allowEmpty, begin.find? (.ofString w) 0 allowEmpty =
            some ⟨0, (Text.ofString w).size⟩ := by
  refine ⟨declared_of_compile hg hm, fun md words hrealizes hwords => ?_⟩
  obtain ⟨begin, hbegin, hbegins⟩ := Mode.beginsAt_of_variants hwords hrealizes.variants
  refine ⟨fun k hk => ?_, begin, hbegins, fun t start allowEmpty s hs => ?_,
    fun w hw hword allowEmpty => ?_⟩
  · obtain ⟨table, htable, hkeywords⟩ := GrammarDef.ownKeywords_of_keywords hk hrealizes.keywords
    rw [htable, effectiveKeywords, hkeywords, Option.getD_some]
  · refine ⟨PatternScope.exists_spells_of_find? hbegin hs, fun w hw hspells hk hbar hlower => ?_⟩
    obtain ⟨table, hkeywords, hcase, hlookup⟩ :=
      GrammarDef.lookup_of_ownKeywords hk hwords hrealizes.keywords
    rw [effectiveKeywords, hkeywords, Option.getD_some, hlookup]
    refine ⟨w, hw, ?_⟩
    rw [KeywordTable.spelling_eq hbar]
    exact KeywordTable.fold_eq_of_spells hcase hspells hlower
  · exact PatternScope.find?_word hbegin (fun w hw => ne_empty_of_mem_splitWords hw) hw hword

/-- A mode that begins at words and has no keywords of its own. -/
def declarationMode : ModeDef where
  scope := some "declaration"
  beginKeywords := some "class interface"
  finish := some (.source ";")

/-- Declarations, with the words as the keywords of the mode. -/
def declarationsDef : GrammarDef where
  name := "declarations"
  contains := [.ref "declaration"]
  modes := [("declaration", declarationMode)]

theorem eq_declarationMode_of_defines {md : ModeDef} (h : declarationsDef.Defines md) :
    md = declarationMode := by
  induction h with
  | @keyed key md h =>
    rw [declarationsDef, Entries.get?_cons] at h
    split at h
    · exact (Option.some.inj h).symm
    · cases h
  | listed h => simp [declarationsDef] at h
  | inner _ hinner ih =>
    rw [ih] at hinner
    cases hinner

/-- The second word begins a region, and it is a keyword. -/
theorem Grammar.beginKeywords_agree_interface : ∃ g m begin, compile declarationsDef = .ok g ∧
    g.modes[1]? = some m ∧ m.variants.map (·.begin) = [begin] ∧
    begin.find? (.ofString "interface") 0 false = some ⟨0, 9⟩ ∧
    ((g.effectiveKeywords m).1.lookup "interface").isSome := by
  have hcompile : (compile declarationsDef).toOption.bind (fun g => g.modes[1]?.map fun m =>
      m.variants.isEmpty) = some false := by decide +kernel
  obtain ⟨g, hg, hcompile⟩ := Option.bind_eq_some_iff.mp hcompile
  obtain ⟨m, hm, hvariants⟩ := Option.map_eq_some_iff.mp hcompile
  have hg' := eq_ok_of_toOption_eq_some hg
  obtain ⟨hdeclared, hagree⟩ := beginKeywords_agree hg' hm
  obtain ⟨md, hmd, hrealizes⟩ := hdeclared.resolve_left fun hnil => by
    rw [hnil] at hvariants
    cases hvariants
  obtain rfl := eq_declarationMode_of_defines hmd
  obtain ⟨-, begin, hbegins, hfound, hwhole⟩ := hagree _ "class interface" hrealizes rfl
  have hword : "interface" ∈ splitWords "class interface" := by decide
  have hletters : "interface".toList.all (Regex.isWord false) = true := by decide
  have hfind := hwhole "interface" hword (List.all_eq_true.mp hletters) false
  obtain ⟨-, hlookup⟩ := hfound _ _ _ _ hfind
  rw [Text.extract_ofString] at hlookup
  have hspells := declarationsDef.patternScope.spells_self "interface"
  exact ⟨g, m, begin, hg', hm, hbegins.only rfl, hfind,
    hlookup "interface" hword hspells rfl (by decide) nofun⟩

/-- Declarations with keywords of their own, which the words that begin them are not among. -/
def inheritanceDef : GrammarDef where
  name := "inheritance"
  contains := [.ref "declaration"]
  modes := [("declaration",
    { declarationMode with keywords := some (.words "extends implements") })]

/-- A word that begins a region is then no keyword of the mode. -/
theorem Grammar.beginKeywords_shadowed : ∃ g m v, compile inheritanceDef = .ok g ∧
    g.modes[1]? = some m ∧ m.variants = [v] ∧
    v.begin.find? (.ofString "class") 0 false = some ⟨0, 5⟩ ∧
    (Text.ofString "class").extract ⟨0, 5⟩ = "class" ∧
    (g.effectiveKeywords m).1.lookup "class" = none := by
  have hcompile : (compile inheritanceDef).toOption.bind (fun g => g.modes[1]?.bind fun m =>
      m.variants.head?.map fun v => (m.variants.length,
        v.begin.find? (.ofString "class") 0 false, (g.effectiveKeywords m).1.lookup "class")) =
      some (1, some ⟨0, 5⟩, none) := by
    decide +kernel
  obtain ⟨g, hg, hcompile⟩ := Option.bind_eq_some_iff.mp hcompile
  obtain ⟨m, hm, hcompile⟩ := Option.bind_eq_some_iff.mp hcompile
  obtain ⟨v, hv, hcompile⟩ := Option.map_eq_some_iff.mp hcompile
  obtain ⟨hlength, hcompile⟩ := Prod.mk.inj hcompile
  obtain ⟨hfind, hlookup⟩ := Prod.mk.inj hcompile
  obtain ⟨w, hw⟩ := List.length_eq_one_iff.mp hlength
  rw [hw] at hv
  cases hv
  exact ⟨g, m, v, eq_ok_of_toOption_eq_some hg, hm, hw, hfind, Text.extract_ofString _, hlookup⟩

end Tinct
