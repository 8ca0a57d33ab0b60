import Mathlib.Data.Finset.Card
import Tinct.Proofs.Grammar.Keywords
import Tinct.Proofs.Text.Digits

/-!
# What lists of words say

A table is written by lists of words, one list after another. Each is read up to its first entry
that has no spelling or no weight, and what a table knows about a word is what the last entry said
that spells it:

* `KeywordTable.Weighs`, `KeywordTable.Spoils`: what an entry weighs, and which entries cannot be
  read;
* `KeywordTable.readEntry_cases`: what is read of an entry;
* `KeywordTable.Holds`: a table with what some entries say, and `KeywordTable.Holds.put`,
  `KeywordTable.Holds.addEntries`: one more entry, and one more list;
* `KeywordTable.last_entry_wins`: what a table knows after any lists.
-/

namespace Tinct

/-- The entry that is wrong. -/
def KeywordError.entry : KeywordError → String
  | .badWeight entry | .noSpelling entry => entry

/-- A text that is read as a weight: decimal digits, with a plus sign in front or not, of a number
that fits 32 bits. -/
def IsWeight (cs : List Char) (n : Nat) : Prop :=
  ∃ digits, (cs = digits ∨ cs = '+' :: digits) ∧ digits ≠ [] ∧ (∀ d ∈ digits, d.isDigit = true) ∧
    Nat.ofDigitChars 10 digits 0 = n ∧ n < Nat.pow 2 32

theorem readWeight?_digits {digits : List Char} (hne : digits ≠ [])
    (hdigits : ∀ d ∈ digits, d.isDigit = true) {cs : List Char}
    (hcs : cs = digits ∨ cs = '+' :: digits) :
    readWeight? cs = if Nat.ofDigitChars 10 digits 0 ≤ maxWeight then
      some (Nat.ofDigitChars 10 digits 0) else none := by
  have hsign : (if cs.head? = some '+' then cs.drop 1 else cs) = digits := by
    obtain rfl | rfl := hcs
    · refine if_neg fun hplus => ?_
      have hdigit := hdigits '+' (List.mem_of_mem_head? hplus)
      cases hdigit
    · rfl
  have hread : (digits.isEmpty || !digits.all Char.isDigit) = false := by
    simpa [hne] using hdigits
  rw [readWeight?, hsign, hread, ← digitsValue_eq]
  rfl

theorem readWeight?_eq_some_iff {cs : List Char} {n : Nat} :
    readWeight? cs = some n ↔ IsWeight cs n := by
  constructor
  · intro h
    have hread := h
    unfold readWeight? at hread
    generalize hsign : (if cs.head? = some '+' then cs.drop 1 else cs) = digits at hread
    dsimp only at hread
    split at hread
    · cases hread
    rename_i hdigits
    obtain ⟨hne, hdigits⟩ : digits ≠ [] ∧ ∀ d ∈ digits, d.isDigit = true := by
      simpa using hdigits
    have hcs : cs = digits ∨ cs = '+' :: digits := by
      split at hsign
      · rename_i hplus
        exact .inr (by rw [← hsign, List.drop_one, ← List.eq_cons_of_mem_head? hplus])
      · exact .inl hsign
    rw [readWeight?_digits hne hdigits hcs] at h
    split at h
    · rename_i hle
      cases h
      exact ⟨digits, hcs, hne, hdigits, rfl, Nat.lt_of_le_sub_one (by decide) hle⟩
    · cases h
  · rintro ⟨digits, hcs, hne, hdigits, rfl, hlt⟩
    have hle : Nat.ofDigitChars 10 digits 0 ≤ maxWeight := Nat.le_sub_one_of_lt hlt
    rw [readWeight?_digits hne hdigits hcs, if_pos hle]

namespace KeywordTable
variable {entry : String} {digits digits' : List Char} {n : Nat}

/-! ## Entries -/

/-- What an entry weighs: what stands behind its first bar, if it has one, otherwise nothing if it
is a common word in lower case, and one if it is not. -/
inductive Weighs (entry : String) : Nat → Prop
  | written {digits : List Char} {n : Nat}
    (hbar : entry.toList = (spelling entry).toList ++ '|' :: digits) (hn : IsWeight digits n) :
    Weighs entry n
  | common (hbar : '|' ∉ entry.toList) (hword : Unicode.lowercase entry ∈ commonWords) :
    Weighs entry 0
  | uncommon (hbar : '|' ∉ entry.toList) (hword : Unicode.lowercase entry ∉ commonWords) :
    Weighs entry 1

/-- An entry that cannot be read: it spells nothing, or what stands behind its first bar is no
weight. -/
def Spoils (entry : String) : Prop :=
  spelling entry = "" ∨ ∃ digits, entry.toList = (spelling entry).toList ++ '|' :: digits ∧
    ∀ n, ¬IsWeight digits n

theorem toList_spelling (entry : String) :
    (spelling entry).toList = entry.toList.takeWhile (· != '|') :=
  String.toList_ofList

theorem bar_cases (entry : String) : '|' ∉ entry.toList ∨
    ∃ digits, entry.toList = (spelling entry).toList ++ '|' :: digits := by
  have hsplit := List.takeWhile_append_dropWhile (p := (· != '|')) (l := entry.toList)
  rw [← toList_spelling] at hsplit
  cases hbehind : entry.toList.dropWhile (· != '|') with
  | nil =>
    refine .inl fun hbar => ?_
    have hne := List.dropWhile_eq_nil_iff.mp hbehind '|' hbar
    cases hne
  | cons c digits =>
    obtain rfl : c = '|' := by
      simpa [hbehind] using List.head?_dropWhile_not (· != '|') entry.toList
    exact .inr ⟨digits, by rw [← hbehind, hsplit]⟩

theorem mem_of_bar (h : entry.toList = (spelling entry).toList ++ '|' :: digits) :
    '|' ∈ entry.toList := by
  rw [h]
  exact List.mem_append_right _ (List.mem_cons_self ..)

theorem bar_unique (h : entry.toList = (spelling entry).toList ++ '|' :: digits)
    (h' : entry.toList = (spelling entry).toList ++ '|' :: digits') : digits = digits' :=
  (List.cons.inj (List.append_cancel_left (h.symm.trans h'))).2

theorem dropWhile_of_bar (h : entry.toList = (spelling entry).toList ++ '|' :: digits) :
    entry.toList.dropWhile (· != '|') = '|' :: digits := by
  have hsplit := List.takeWhile_append_dropWhile (p := (· != '|')) (l := entry.toList)
  rw [← toList_spelling] at hsplit
  exact List.append_cancel_left (hsplit.trans h)

theorem dropWhile_of_not_bar (h : '|' ∉ entry.toList) :
    entry.toList.dropWhile (· != '|') = [] :=
  List.dropWhile_eq_nil_iff.mpr fun _ hc => bne_iff_ne.mpr fun heq => h (heq ▸ hc)

theorem Weighs.unique {n' : Nat} (h : Weighs entry n) (h' : Weighs entry n') : n = n' := by
  cases h with
  | written hbar hn =>
    cases h' with
    | written hbar' hn' =>
      obtain rfl := bar_unique hbar hbar'
      rw [← readWeight?_eq_some_iff] at hn hn'
      exact Option.some.inj (hn.symm.trans hn')
    | common hbar' | uncommon hbar' => exact absurd (mem_of_bar hbar) hbar'
  | common hbar hword =>
    cases h' with
    | written hbar' => exact absurd (mem_of_bar hbar') hbar
    | common => rfl
    | uncommon _ hword' => exact absurd hword hword'
  | uncommon hbar hword =>
    cases h' with
    | written hbar' => exact absurd (mem_of_bar hbar') hbar
    | common _ hword' => exact absurd hword' hword
    | uncommon => rfl

theorem weighs_or (entry : String) : (∃ n, Weighs entry n) ∨
    ∃ digits, entry.toList = (spelling entry).toList ++ '|' :: digits ∧
      ∀ n, ¬IsWeight digits n := by
  obtain hbar | ⟨digits, hbar⟩ := bar_cases entry
  · by_cases hword : Unicode.lowercase entry ∈ commonWords
    · exact .inl ⟨0, .common hbar hword⟩
    · exact .inl ⟨1, .uncommon hbar hword⟩
  · by_cases hn : ∃ n, IsWeight digits n
    · obtain ⟨n, hn⟩ := hn
      exact .inl ⟨n, .written hbar hn⟩
    · exact .inr ⟨digits, hbar, fun n h => hn ⟨n, h⟩⟩

theorem isEmpty_takeWhile_iff :
    (entry.toList.takeWhile (· != '|')).isEmpty = true ↔ spelling entry = "" := by
  rw [List.isEmpty_iff, ← toList_spelling, String.toList_eq_nil_iff]

theorem readEntry_of_weighs (h : Weighs entry n) : readEntry entry =
    if spelling entry = "" then .error (.noSpelling entry) else .ok (spelling entry, n) := by
  unfold readEntry
  simp only [isEmpty_takeWhile_iff]
  cases h with
  | written hbar hn =>
    rw [dropWhile_of_bar hbar]
    dsimp only
    rw [readWeight?_eq_some_iff.mpr hn]
    rfl
  | common hbar hword =>
    rw [dropWhile_of_not_bar hbar, if_pos (List.contains_iff_mem.mpr hword)]
    rfl
  | uncommon hbar hword =>
    rw [dropWhile_of_not_bar hbar, if_neg (mt List.contains_iff_mem.mp hword)]
    rfl

theorem readEntry_of_not_weight (hbar : entry.toList = (spelling entry).toList ++ '|' :: digits)
    (hn : ∀ n, ¬IsWeight digits n) : readEntry entry = .error (.badWeight entry) := by
  have hnone : readWeight? digits = none :=
    Option.eq_none_iff_forall_ne_some.mpr fun n h => hn n (readWeight?_eq_some_iff.mp h)
  unfold readEntry
  dsimp only
  rw [dropWhile_of_bar hbar]
  dsimp only
  rw [hnone]
  rfl

theorem Weighs.not_spoils_iff (h : Weighs entry n) : ¬Spoils entry ↔ spelling entry ≠ "" := by
  refine not_congr ⟨?_, .inl⟩
  rintro (hempty | ⟨digits, hbar, hnot⟩)
  · exact hempty
  · cases h with
    | written hbar' hn =>
      obtain rfl := bar_unique hbar hbar'
      exact absurd hn (hnot _)
    | common hbar' | uncommon hbar' => exact absurd (mem_of_bar hbar) hbar'

/-- An entry is read as what it spells and what it weighs, or it is refused. -/
theorem readEntry_cases (entry : String) :
    (∃ n, Weighs entry n ∧ ¬Spoils entry ∧ readEntry entry = .ok (spelling entry, n)) ∨
      ∃ e, Spoils entry ∧ readEntry entry = .error e ∧ e.entry = entry := by
  obtain ⟨n, hn⟩ | ⟨digits, hbar, hnot⟩ := weighs_or entry
  · rw [readEntry_of_weighs hn, hn.not_spoils_iff]
    by_cases hempty : spelling entry = ""
    · rw [if_pos hempty]
      exact .inr ⟨_, .inl hempty, rfl, rfl⟩
    · rw [if_neg hempty]
      exact .inl ⟨n, hn, hempty, rfl⟩
  · exact .inr ⟨_, .inr ⟨digits, hbar, hnot⟩, readEntry_of_not_weight hbar hnot, rfl⟩

theorem spoils_iff : Spoils entry ↔ (readEntry entry).toOption.isNone = true := by
  obtain ⟨n, -, hspoils, hread⟩ | ⟨e, hspoils, hread, -⟩ := readEntry_cases entry
  · rw [hread]
    exact iff_of_false hspoils Bool.false_ne_true
  · rw [hread]
    exact iff_of_true hspoils rfl

instance (entry : String) : Decidable (Spoils entry) := decidable_of_iff' _ spoils_iff

/-! ## Tables -/

/-- The last of some entries that spells what is kept under a key says its category and weight. -/
def LastSays (t : KeywordTable) (said : List (Scope × String))
    (key : String) (k : Keyword) : Prop :=
  ∃ front entry behind, said = front ++ (k.category, entry) :: behind ∧
    t.fold (spelling entry) = key ∧ Weighs entry k.weight ∧
      ∀ e ∈ behind, t.fold (spelling e.2) ≠ key

/-- A table holds what some entries say. -/
structure Holds (t : KeywordTable) (said : List (Scope × String)) : Prop where
  get? : ∀ key k, t.entries.get? key = some k ↔ t.LastSays said key k
  keys : ∀ key, key ∈ t.entries.map (·.1) ↔ ∃ e ∈ said, t.fold (spelling e.2) = key
  nodup : (t.entries.map (·.1)).Nodup

section tables
variable {t : KeywordTable} {said : List (Scope × String)} {category : Scope}

/-- One more entry is the last one that spells its word. -/
theorem lastSays_concat (hn : Weighs entry n) {key : String} {k : Keyword} :
    t.LastSays (said ++ [(category, entry)]) key k ↔
      if key = t.fold (spelling entry) then ⟨category, n⟩ = k else t.LastSays said key k := by
  constructor
  · rintro ⟨front, entry', behind, hsaid, hkey, hweight, hbehind⟩
    obtain rfl | ⟨behind, e, rfl⟩ := List.eq_nil_or_concat' behind
    · obtain ⟨-, hlast⟩ := List.append_inj' hsaid rfl
      cases hlast
      rw [if_pos hkey.symm, hn.unique hweight]
    · rw [← List.cons_append, ← List.append_assoc] at hsaid
      obtain ⟨rfl, hlast⟩ := List.append_inj' hsaid rfl
      cases hlast
      obtain ⟨hbehind, hne⟩ := List.forall_mem_append.mp hbehind
      rw [if_neg fun heq => hne _ (List.mem_singleton_self _) heq.symm]
      exact ⟨front, entry', behind, rfl, hkey, hweight, hbehind⟩
  · intro h
    split at h
    · rename_i hkey
      subst h
      exact ⟨said, entry, [], rfl, hkey.symm, hn, nofun⟩
    · rename_i hkey
      obtain ⟨front, entry', behind, rfl, hkey', hweight, hbehind⟩ := h
      refine ⟨front, entry', behind ++ [(category, entry)], by simp, hkey', hweight, ?_⟩
      exact List.forall_mem_append.mpr ⟨hbehind, List.forall_mem_singleton.mpr (Ne.symm hkey)⟩

theorem Holds.put (h : t.Holds said) (hn : Weighs entry n) (category : Scope) :
    { t with entries := t.entries.put (t.fold (spelling entry)) ⟨category, n⟩ }.Holds
      (said ++ [(category, entry)]) where
  get? key k := by
    refine Iff.trans ?_ (lastSays_concat (t := t) hn).symm
    dsimp only
    rw [Entries.get?_put]
    split
    · rw [Option.some.injEq]
    · exact h.get? key k
  keys key := by
    have hsaid : (∃ e ∈ said ++ [(category, entry)], t.fold (spelling e.2) = key) ↔
        key ∈ t.entries.map (·.1) ∨ key = t.fold (spelling entry) := by
      rw [h.keys]
      simp only [List.mem_append, List.mem_singleton, or_and_right, exists_or, exists_eq_left,
        eq_comm]
    refine Iff.trans ?_ hsaid.symm
    dsimp only
    rw [Entries.map_fst_put]
    split
    · rename_i hold
      exact (or_iff_left_of_imp fun heq => heq ▸ hold).symm
    · rw [List.mem_append, List.mem_singleton]
  nodup := Entries.nodup_put h.nodup _ _

/-- The entries of a list that are read: those in front of the first one that cannot be. -/
def readable (entries : List String) : List String := entries.takeWhile fun e => !decide (Spoils e)

/-- The first entry of a list that cannot be read. -/
def firstSpoiled (entries : List String) : Option String := entries.find? fun e => decide (Spoils e)

theorem addEntries_cases (t : KeywordTable) (category : Scope) (entry : String)
    (entries : List String) :
    (∃ n, Weighs entry n ∧ readable (entry :: entries) = entry :: readable entries ∧
        firstSpoiled (entry :: entries) = firstSpoiled entries ∧
        ∀ es, t.addEntries category (entry :: es) =
          { t with entries := t.entries.put (t.fold (spelling entry)) ⟨category, n⟩ }.addEntries
            category es) ∨
      ∃ e, e.entry = entry ∧ readable (entry :: entries) = [] ∧
        firstSpoiled (entry :: entries) = some entry ∧
        t.addEntries category (entry :: entries) = (t, some e) := by
  obtain ⟨n, hn, hspoils, hread⟩ | ⟨e, hspoils, hread, he⟩ := readEntry_cases entry
  · refine .inl ⟨n, hn, ?_, ?_, fun es => ?_⟩
    · exact List.takeWhile_cons_of_pos (by simpa using hspoils)
    · exact List.find?_cons_of_neg (by simpa using hspoils)
    · rw [addEntries, hread]
  · refine .inr ⟨e, he, ?_, ?_, ?_⟩
    · exact List.takeWhile_cons_of_neg (by simpa using hspoils)
    · exact List.find?_cons_of_pos (by simpa using hspoils)
    · rw [addEntries, hread]

theorem ignoreCase_addEntries (t : KeywordTable) (category : Scope) (entries : List String) :
    (t.addEntries category entries).1.ignoreCase = t.ignoreCase := by
  induction entries generalizing t with
  | nil => rfl
  | cons entry entries ih =>
    obtain ⟨n, -, -, -, hadd⟩ | ⟨e, -, -, -, hadd⟩ := addEntries_cases t category entry entries
    · rw [hadd, ih]
    · rw [hadd]

/-- After a list, a table holds what it held and what the entries say that are read. -/
theorem Holds.addEntries (h : t.Holds said) (category : Scope) (entries : List String) :
    (t.addEntries category entries).1.Holds (said ++ (readable entries).map (category, ·)) := by
  induction entries generalizing t said with
  | nil =>
    rw [readable, List.takeWhile_nil, List.map_nil, List.append_nil]
    exact h
  | cons entry entries ih =>
    obtain ⟨n, hn, hreadable, -, hadd⟩ | ⟨e, -, hreadable, -, hadd⟩ :=
      addEntries_cases t category entry entries
    · rw [hadd, hreadable, List.map_cons, List.append_cons]
      exact ih (h.put hn category)
    · rw [hadd, hreadable, List.map_nil, List.append_nil]
      exact h

/-- What is reported is the first entry that cannot be read. -/
theorem entry_of_addEntries (t : KeywordTable) (category : Scope) (entries : List String) :
    (t.addEntries category entries).2.map (·.entry) = firstSpoiled entries := by
  induction entries generalizing t with
  | nil => rfl
  | cons entry entries ih =>
    obtain ⟨n, -, -, hfind, hadd⟩ | ⟨e, he, -, hfind, hadd⟩ :=
      addEntries_cases t category entry entries
    · rw [hadd, hfind, ih]
    · rw [hadd, hfind, Option.map_some, he]

/-- The entries that are read are added by themselves as they are in front of the others. -/
theorem addEntries_readable (t : KeywordTable) (category : Scope) (entries : List String) :
    t.addEntries category (readable entries) = ((t.addEntries category entries).1, none) := by
  induction entries generalizing t with
  | nil => rfl
  | cons entry entries ih =>
    obtain ⟨n, -, hreadable, -, hadd⟩ | ⟨e, -, hreadable, -, hadd⟩ :=
      addEntries_cases t category entry entries
    · rw [hreadable, hadd, hadd, ih]
    · rw [hreadable, hadd]
      rfl

end tables

/-- The table that lists of words write, each under its category. What a list has added before it
fails stays. -/
def ofLists (ignoreCase : Bool) (lists : List (Scope × String)) : KeywordTable :=
  lists.foldl (fun t l => (t.add l.1 l.2).1) { ignoreCase }

/-- The entries of lists that are read, in order, each with its category. -/
def readableOf (lists : List (Scope × String)) : List (Scope × String) :=
  lists.flatMap fun l => (readable (splitWords l.2)).map (l.1, ·)

theorem holds_foldl {t : KeywordTable} {said : List (Scope × String)} (h : t.Holds said)
    (lists : List (Scope × String)) :
    (lists.foldl (fun t l => (t.add l.1 l.2).1) t).ignoreCase = t.ignoreCase ∧
      (lists.foldl (fun t l => (t.add l.1 l.2).1) t).Holds (said ++ readableOf lists) := by
  induction lists generalizing t said with
  | nil =>
    rw [readableOf, List.flatMap_nil, List.append_nil]
    exact ⟨rfl, h⟩
  | cons l lists ih =>
    obtain ⟨hcase, hholds⟩ := ih (h.addEntries l.1 (splitWords l.2))
    rw [List.append_assoc] at hholds
    exact ⟨hcase.trans (ignoreCase_addEntries t l.1 _), hholds⟩

/-- A table that lists of words write, some of which fail, knows of each word what the last entry
says that was read and spells it. It holds as many words as these entries spell. A list fails where
an entry has no spelling or no weight, and what has been added then are the entries in front of the
first such one. -/
theorem last_entry_wins (ignoreCase : Bool) (lists : List (Scope × String)) :
    let t := ofLists ignoreCase lists
    t.ignoreCase = ignoreCase ∧
      (∀ word k, t.lookup word = some k ↔ t.LastSays (readableOf lists) (t.fold word) k) ∧
      (∀ word, t.lookup word = none ↔
        ∀ e ∈ readableOf lists, t.fold (spelling e.2) ≠ t.fold word) ∧
      t.size = ((readableOf lists).map fun e => t.fold (spelling e.2)).toFinset.card ∧
      ∀ category words,
        ((t.add category words).2 ≠ none ↔ ∃ e ∈ splitWords words, Spoils e) ∧
        (t.add category words).1 = (t.addEntries category (readable (splitWords words))).1 ∧
        (t.addEntries category (readable (splitWords words))).2 = none := by
  intro t
  have hempty : ({ ignoreCase } : KeywordTable).Holds [] :=
    ⟨fun key k => by simp [LastSays], fun key => by simp, .nil⟩
  obtain ⟨hcase, hholds⟩ : t.ignoreCase = ignoreCase ∧ t.Holds (readableOf lists) :=
    holds_foldl hempty lists
  refine ⟨hcase, fun word k => hholds.get? _ k, fun word => ?_, ?_, fun category words => ?_⟩
  · rw [lookup, Entries.get?_eq_none_iff, hholds.keys]
    simp
  · have hkeys : (t.entries.map (·.1)).toFinset =
        ((readableOf lists).map fun e => t.fold (spelling e.2)).toFinset := by
      ext key
      rw [List.mem_toFinset, hholds.keys, List.mem_toFinset, List.mem_map]
    rw [← hkeys, List.toFinset_card_of_nodup hholds.nodup, List.length_map, size]
  · refine ⟨?_, ?_, ?_⟩
    · have hfirst := entry_of_addEntries t category (splitWords words)
      rw [add, ← Option.isSome_iff_ne_none, ← Option.isSome_map, hfirst, firstSpoiled,
        List.find?_isSome]
      simp only [decide_eq_true_eq]
    · rw [add, addEntries_readable]
    · rw [addEntries_readable]

/-- What a list says in front of a weight that is none stays, and a later list says otherwise of
another spelling of the word. -/
example :
    let t := ofLists true [(⟨"keyword"⟩, "If End while|x do"), (⟨"literal"⟩, "END|3")]
    (t.lookup "end", t.lookup "if", t.lookup "do", t.size) =
      (some ⟨⟨"literal"⟩, 3⟩, some ⟨⟨"keyword"⟩, 0⟩, none, 2) := by
  decide +kernel

end KeywordTable
end Tinct
