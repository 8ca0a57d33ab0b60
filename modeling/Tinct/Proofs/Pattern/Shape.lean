import Tinct.Proofs.Pattern.Cutting
import Tinct.Proofs.Regex.Extent.Element

/-!
# What stands at the front of a source

The kind of an element and its text decide each other, but for what stands behind it:

* `LexemeKind.group?_eq_iff`: what a parenthesis opens, by the mark behind it;
* `LexemeKind.HasText`: the texts of elements that end at their own end, the same in front of any
  source;
* `LexemeKind.Heads`, `LexemeKind.heads_of_next?`: what stands at the front of a source, by its
  kind;
* `LexemeKind.next?_length`, `LexemeKind.next?_of_append`: an element is no longer than its source,
  and the same where its source ends earlier, but not in front of its own end.
-/

namespace Tinct
namespace LexemeKind

/-! ## Names -/

theorem isNamePart_of_isNameStart {c : Char} (h : isNameStart c = true) : isNamePart c = true := by
  rw [isNameStart, Bool.or_eq_true] at h
  rw [isNamePart, Bool.or_eq_true, Char.isAlphanum, Bool.or_eq_true]
  exact h.imp_left .inl

theorem nameLength_cons (c : Char) (cs : List Char) : nameLength (c :: cs) =
    if isNameStart c then ((c :: cs).takeWhile isNamePart).length else 0 := rfl

theorem nameLength_eq_zero_iff {c : Char} {cs : List Char} :
    nameLength (c :: cs) = 0 ↔ isNameStart c = false := by
  rw [nameLength_cons]
  cases h : isNameStart c with
  | false => simp
  | true => simp [isNamePart_of_isNameStart h]

/-- Whether a text is a name that the pattern syntax knows. -/
def isWord (name : List Char) : Bool := nameLength name != 0 && nameLength name == name.length

theorem isNamePart_of_mem {name : List Char} (h : isWord name = true) {c : Char} (hc : c ∈ name) :
    isNamePart c = true := by
  obtain ⟨hne, hlength⟩ := (Bool.and_eq_true _ _).mp h
  replace hlength : nameLength name = name.length := eq_of_beq hlength
  cases name with
  | nil => cases hc
  | cons d name =>
    rw [nameLength_cons] at hlength
    split at hlength
    · rw [← (List.takeWhile_prefix _).eq_of_length hlength] at hc
      exact List.all_eq_true.mp List.all_takeWhile c hc
    · cases hlength

/-- A name ends where something stands that is no part of one. -/
theorem nameLength_append {name : List Char} (h : isWord name = true) (cs : List Char)
    (hcs : ∀ c, cs.head? = some c → isNamePart c = false) :
    nameLength (name ++ cs) = name.length ∧ name.length ≠ 0 := by
  obtain ⟨hne, hlength⟩ := (Bool.and_eq_true _ _).mp h
  replace hlength : nameLength name = name.length := eq_of_beq hlength
  rw [hlength] at hne
  refine ⟨?_, bne_iff_ne.mp hne⟩
  cases name with
  | nil => cases hne
  | cons c name =>
    rw [nameLength_cons] at hlength
    split at hlength
    · rename_i hstart
      rw [List.cons_append, nameLength_cons, if_pos hstart, ← List.cons_append]
      have hall : ∀ d ∈ c :: name, isNamePart d = true := fun d hd => isNamePart_of_mem h hd
      rw [(Regex.Flags.takeWhile_append_of_head? hall hcs).1]
    · cases hlength

theorem nameLength_of_append {cs ds : List Char} (h : nameLength (cs ++ ds) = 0) :
    nameLength cs = 0 := by
  cases cs with
  | nil => rfl
  | cons c cs => exact nameLength_eq_zero_iff.mpr (nameLength_eq_zero_iff.mp h)

/-- The name at the front. -/
theorem exists_name {cs : List Char} (h : nameLength cs ≠ 0) :
    ∃ name rest, cs = name ++ rest ∧ nameLength cs = name.length ∧ isWord name = true ∧
      ∀ c, rest.head? = some c → isNamePart c = false := by
  cases cs with
  | nil => exact absurd rfl h
  | cons c cs =>
    have hstart : isNameStart c = true := by
      refine Bool.not_eq_false _ ▸ fun hstart => h (nameLength_eq_zero_iff.mpr hstart)
    have hpart := isNamePart_of_isNameStart hstart
    obtain ⟨name, rest, rfl, hname, hrest⟩ := Regex.Flags.exists_span isNamePart cs
    have hall : ∀ d ∈ c :: name, isNamePart d = true := List.forall_mem_cons.mpr ⟨hpart, hname⟩
    have hword : isWord (c :: name) = true := by
      have htake := (@Regex.Flags.takeWhile_append_of_head? isNamePart (c :: name) [] hall nofun).1
      rw [List.append_nil] at htake
      simp [isWord, nameLength_cons, hstart, htake]
    exact ⟨c :: name, rest, rfl, (nameLength_append hword rest hrest).1, hword, hrest⟩

/-- A name with something behind it that ends it. -/
theorem exists_name_before {cs close : List Char} (h : nameLength cs ≠ 0)
    (hclose : close <+: cs.drop (nameLength cs)) :
    ∃ name rest, cs = name ++ (close ++ rest) ∧ nameLength cs = name.length ∧
      isWord name = true := by
  obtain ⟨name, behind, rfl, hlength, hname, -⟩ := exists_name h
  rw [hlength, List.drop_left] at hclose
  obtain ⟨rest, rfl⟩ := hclose
  exact ⟨name, rest, rfl, hlength, hname⟩

/-! ## Classes -/

theorem classLength?_append {cs : List Char} {n : Nat} (h : classLength? cs = some n)
    (more : List Char) : n ≤ cs.length ∧ classLength? (cs ++ more) = some n := by
  fun_induction classLength? cs generalizing n with
  | case1 => cases h
  | case2 cs =>
    cases h
    exact ⟨by simp, rfl⟩
  | case3 => cases h
  | case4 c cs hc ih =>
    obtain ⟨m, hm, rfl⟩ := Option.map_eq_some_iff.mp h
    obtain ⟨hle, hread⟩ := ih hm
    refine ⟨by simpa using hle, ?_⟩
    rw [List.cons_append, List.cons_append, classLength?, if_neg hc, hread]
    rfl
  | case5 c cs hbracket hbackslash ih =>
    obtain ⟨m, hm, rfl⟩ := Option.map_eq_some_iff.mp h
    obtain ⟨hle, hread⟩ := ih hm
    refine ⟨by simpa using hle, ?_⟩
    have hbackslash' : c ≠ '\\' := by
      rintro rfl
      cases cs with
      | nil => cases hm
      | cons d cs => exact hbackslash d cs rfl rfl
    rw [List.cons_append, Regex.Flags.classLength?_cons (fun hc => hbracket hc) hbackslash', hread]
    rfl

/-- A class ends at its own end, whatever stands behind it. -/
theorem charClass?_append {cs : List Char} {kind : LexemeKind} {n : Nat}
    (h : charClass? cs = some (kind, n)) (more : List Char) :
    0 < n ∧ n ≤ cs.length + 1 ∧ charClass? (cs ++ more) = some (kind, n) := by
  obtain ⟨m, hm, heq⟩ := Option.map_eq_some_iff.mp h
  cases heq
  have hlength : ∀ k, classLength? (cs.drop k) = some m → k < cs.length := by
    intro k hk
    refine Nat.lt_of_not_le fun hle => ?_
    rw [List.drop_eq_nil_of_le hle] at hk
    cases hk
  have hlt := hlength _ hm
  have hhead {k : Nat} (hk : k < cs.length) : ((cs ++ more).drop k).head? = (cs.drop k).head? := by
    rw [List.drop_append_of_le_length hk.le, List.head?_append_of_ne_nil]
    exact fun hnil => absurd (List.drop_eq_nil_iff.mp hnil) (by omega)
  have hcaret := hhead (k := 0) (by omega)
  rw [List.drop_zero, List.drop_zero] at hcaret
  have hbracket := hhead (k := if cs.head? = some '^' then 1 else 0) (by omega)
  obtain ⟨hle, hread⟩ := classLength?_append hm more
  rw [List.length_drop] at hle
  refine ⟨by omega, by omega, ?_⟩
  unfold charClass?
  dsimp only
  rw [hcaret, hbracket, List.drop_append_of_le_length hlt.le, hread]
  rfl

theorem classLength?_take {cs : List Char} {n : Nat} (h : classLength? cs = some n) :
    classLength? (cs.take n) = some n := by
  fun_induction classLength? cs generalizing n with
  | case1 => cases h
  | case2 cs =>
    cases h
    rfl
  | case3 => cases h
  | case4 c cs hc ih =>
    obtain ⟨m, hm, rfl⟩ := Option.map_eq_some_iff.mp h
    rw [List.take_succ_cons, List.take_succ_cons, classLength?, if_neg hc, ih hm]
    rfl
  | case5 c cs hbracket hbackslash ih =>
    obtain ⟨m, hm, rfl⟩ := Option.map_eq_some_iff.mp h
    have hbackslash' : c ≠ '\\' := by
      rintro rfl
      cases cs with
      | nil => cases hm
      | cons d cs => exact hbackslash d cs rfl rfl
    rw [List.take_succ_cons, Regex.Flags.classLength?_cons (fun hc => hbracket hc) hbackslash',
      ih hm]
    rfl

theorem classLength?_pos {cs : List Char} {n : Nat} (h : classLength? cs = some n) : 0 < n := by
  unfold classLength? at h
  split at h
  · cases h
  · cases h
    exact Nat.one_pos
  · split at h
    · cases h
    · obtain ⟨m, -, rfl⟩ := Option.map_eq_some_iff.mp h
      exact Nat.succ_pos _
  · obtain ⟨m, -, rfl⟩ := Option.map_eq_some_iff.mp h
    exact Nat.succ_pos _

/-- A class by itself, without what stands behind it. -/
theorem exists_charClass {cs : List Char} {kind : LexemeKind} {n : Nat}
    (h : charClass? cs = some (kind, n)) : kind = .charClass ∧ ∃ inside rest,
      cs = inside ++ rest ∧ n = inside.length + 1 ∧
        charClass? inside = some (.charClass, inside.length + 1) := by
  obtain ⟨m, hm, heq⟩ := Option.map_eq_some_iff.mp h
  cases heq
  generalize hcaret : (if cs.head? = some '^' then 1 else 0) = caret at hm ⊢
  generalize hbracket : (if (cs.drop caret).head? = some ']' then 1 else 0) = bracket at hm ⊢
  have hpos := classLength?_pos hm
  have hhead : (cs.take (caret + bracket + m)).head? = cs.head? := by
    rw [List.head?_take, if_neg (by omega)]
  have hhead' : ((cs.take (caret + bracket + m)).drop caret).head? = (cs.drop caret).head? := by
    rw [List.drop_take, List.head?_take, if_neg (by omega)]
  have hlength : (cs.take (caret + bracket + m)).length = caret + bracket + m := by
    have hle := (classLength?_append hm []).1
    rw [List.length_drop] at hle
    rw [List.length_take]
    omega
  refine ⟨rfl, cs.take (caret + bracket + m), cs.drop (caret + bracket + m),
    (List.take_append_drop ..).symm, by rw [hlength]; omega, ?_⟩
  unfold charClass?
  dsimp only
  rw [hhead, hcaret, hhead', hbracket, List.drop_take, Nat.add_sub_cancel_left,
    classLength?_take hm, hlength]
  simp only [Option.map_some, Option.some.injEq, Prod.mk.injEq, true_and]
  omega

/-! ## Marks -/

/-- None of some marks stands at the front of a source. -/
def Avoids (marks : List (List Char)) (cs : List Char) : Prop := ∀ mark ∈ marks, ¬mark <+: cs

namespace Avoids
variable {marks : List (List Char)} {cs : List Char}

theorem ne (h : Avoids marks cs) {mark : List Char} (hmark : mark ∈ marks) (ds : List Char) :
    cs ≠ mark ++ ds := by
  rintro rfl
  exact h mark hmark (List.prefix_append _ _)

theorem of_front {ds : List Char} (h : Avoids marks ds) (hcs : cs <+: ds) : Avoids marks cs :=
  fun mark hmark hfront => h mark hmark (hfront.trans hcs)

/-- A character that belongs to no mark completes none. -/
theorem append {c : Char} (h : Avoids marks cs) (hc : ∀ mark ∈ marks, c ∉ mark) (more : List Char) :
    Avoids marks (cs ++ c :: more) := by
  intro mark hmark hfront
  have hend : cs ++ [c] <+: cs ++ c :: more := ⟨more, by simp⟩
  obtain hle | hle := List.prefix_or_prefix_of_prefix hfront hend
  · obtain rfl | hle := List.prefix_concat_iff.mp hle
    · exact hc _ hmark (List.mem_append_right _ (List.mem_singleton_self c))
    · exact h mark hmark hle
  · exact hc mark hmark (hle.subset (List.mem_append_right _ (List.mem_singleton_self c)))

theorem of_forall {p : Char → Bool} (h : ∀ c ∈ cs, p c = true)
    (hmarks : ∀ mark ∈ marks, mark.all p = false) : Avoids marks cs := by
  intro mark hmark hfront
  have hall : mark.all p = true := List.all_eq_true.mpr fun c hc => h c (hfront.subset hc)
  cases hall.symm.trans (hmarks mark hmark)

end Avoids

theorem avoids_singleton_iff {c : Char} {cs : List Char} :
    Avoids [[c]] cs ↔ cs.head? ≠ some c := by
  rw [Avoids, List.forall_mem_singleton, List.singleton_prefix_iff_head?_eq_some]

/-! ## Groups -/

theorem namedGroup?_append {name rest : List Char} (hname : isWord name = true)
    (hrest : ∀ c, rest.head? = some c → isNamePart c = false) (skip : Nat) :
    namedGroup? skip (name ++ rest) =
      if rest.head? = some '>' then some (.namedOpen, skip + name.length + 2) else none := by
  obtain ⟨hlength, hne⟩ := nameLength_append hname rest hrest
  unfold namedGroup?
  rw [hlength]
  split
  · rename_i hzero
    exact absurd hzero hne
  · rw [List.drop_left]

theorem namedGroup?_of_nameLength {cs : List Char} (h : nameLength cs = 0) (skip : Nat) :
    namedGroup? skip cs = some (.open, 1) := by
  unfold namedGroup?
  rw [h]
  rfl

theorem flagGroup?_append {letters rest : List Char} (hletters : ∀ c ∈ letters, isFlag c = true)
    (hrest : ∀ c ∈ rest.head?, isFlag c = false) : flagGroup? (letters ++ rest) =
      if rest.head? = some ':' then some (.uncapturedOpen, letters.length + 3)
      else if letters = [] then some (.open, 1)
      else if rest.head? = some ')' then some (.flags, letters.length + 3)
      else if letters = ['P'] then some (.open, 1)
      else some (.open, letters.length + 2) := by
  obtain ⟨htake, hdrop⟩ := Regex.Flags.takeWhile_append_of_head? hletters hrest
  unfold flagGroup?
  rw [htake, hdrop]
  cases rest with
  | nil =>
    match letters with
    | [] => rfl
    | [c] => simp
    | c :: d :: letters => simp
  | cons r rest =>
    by_cases hcolon : r = ':'
    · subst hcolon
      simp
    by_cases hclose : r = ')'
    · subst hclose
      match letters with
      | [] => rfl
      | c :: letters => simp
    match letters with
    | [] => simp_all
    | [c] => simp_all
    | c :: d :: letters => simp_all

/-- A named group has a name that ends, or none at all. -/
theorem namedGroup?_cases {skip : Nat} {cs : List Char} {kind : LexemeKind} {n : Nat}
    (h : namedGroup? skip cs = some (kind, n)) :
    (nameLength cs = 0 ∧ kind = .open ∧ n = 1) ∨
      ∃ name rest, cs = name ++ '>' :: rest ∧ isWord name = true ∧ kind = .namedOpen ∧
        n = skip + name.length + 2 := by
  unfold namedGroup? at h
  split at h
  · rename_i hzero
    cases h
    exact .inl ⟨hzero, rfl, rfl⟩
  · rename_i hne
    split at h
    · rename_i hhead
      obtain ⟨name, rest, rfl, hlength, hname⟩ :=
        exists_name_before hne (List.singleton_prefix_iff_head?_eq_some.mpr hhead)
      rw [hlength] at h
      cases h
      exact .inr ⟨name, rest, rfl, hname, rfl, rfl⟩
    · cases h

theorem nameLength_eq_zero_of_namedGroup? {skip : Nat} {cs : List Char} {n : Nat}
    (h : namedGroup? skip cs = some (.open, n)) : nameLength cs = 0 ∧ n = 1 := by
  obtain ⟨hzero, -, hn⟩ | ⟨-, -, -, -, hkind, -⟩ := namedGroup?_cases h
  · exact ⟨hzero, hn⟩
  · cases hkind

/-- Flags belong to a group, or are set up to the end of the group around them, or else stand by
themselves behind a parenthesis. -/
theorem flagGroup?_cases {cs : List Char} {kind : LexemeKind} {n : Nat}
    (h : flagGroup? cs = some (kind, n)) :
    ∃ letters rest, cs = letters ++ rest ∧ (∀ c ∈ letters, isFlag c = true) ∧
      (kind = .uncapturedOpen ∧ n = letters.length + 3 ∧ rest.head? = some ':' ∨
        kind = .flags ∧ n = letters.length + 3 ∧ rest.head? = some ')' ∧ letters ≠ [] ∨
        kind = .open ∧ 0 < n ∧ n ≤ letters.length + 2) := by
  obtain ⟨letters, rest, rfl, hletters, hrest⟩ := Regex.Flags.exists_span isFlag cs
  rw [flagGroup?_append hletters hrest] at h
  refine ⟨letters, rest, rfl, hletters, ?_⟩
  split at h
  · rename_i hcolon
    cases h
    exact .inl ⟨rfl, rfl, hcolon⟩
  split at h
  · cases h
    exact .inr (.inr ⟨rfl, Nat.one_pos, by omega⟩)
  rename_i hne
  split at h
  · rename_i hclose
    cases h
    exact .inr (.inl ⟨rfl, rfl, hclose, hne⟩)
  split at h
  · cases h
    exact .inr (.inr ⟨rfl, Nat.one_pos, by omega⟩)
  · cases h
    exact .inr (.inr ⟨rfl, by omega, Nat.le_refl _⟩)

/-- The marks of lookarounds. -/
inductive Looks : LexemeKind → List Char → Prop
  | ahead : Looks .lookaheadOpen ['=']
  | notAhead : Looks .negativeLookaheadOpen ['!']
  | behind {c : Char} (hc : c = '=' ∨ c = '!') : Looks .lookbehindOpen ['<', c]

/-- What a parenthesis opens, by the mark behind it. -/
inductive Opening : List Char → Option (LexemeKind × Nat) → Prop
  | bare {cs : List Char} (h : Avoids [['?']] cs) : Opening cs (some (.open, 1))
  | look {kind : LexemeKind} {mark : List Char} (hmark : Looks kind mark) (cs : List Char) :
    Opening ('?' :: mark ++ cs) (some (kind, mark.length + 2))
  | named {mark cs : List Char} {found : Option (LexemeKind × Nat)}
    (hmark : mark = [] ∨ mark = ['P']) (hlook : mark = [] → Avoids [['='], ['!']] cs)
    (h : namedGroup? (mark.length + 2) cs = found) : Opening ('?' :: mark ++ '<' :: cs) found
  | flags {cs : List Char} {found : Option (LexemeKind × Nat)}
    (hmarks : Avoids [['='], ['!'], ['<'], ['P', '<']] cs) (h : flagGroup? cs = found) :
    Opening ('?' :: cs) found

theorem group?_eq_iff {cs : List Char} {found : Option (LexemeKind × Nat)} :
    group? cs = found ↔ Opening cs found := by
  constructor
  · rintro rfl
    unfold group?
    split
    · exact .look .ahead _
    · exact .look .notAhead _
    · exact .look (.behind (.inl rfl)) _
    · exact .look (.behind (.inr rfl)) _
    · rename_i hequal hmark
      refine .named (.inl rfl) (fun _ => ?_) rfl
      simpa [Avoids, List.cons_prefix_iff] using ⟨hequal, hmark⟩
    · exact .named (.inr rfl) nofun rfl
    · rename_i hequal hmark _ _ hangle hnamed
      refine .flags ?_ rfl
      simpa [Avoids, List.cons_prefix_iff] using ⟨hequal, hmark, hangle, hnamed⟩
    · rename_i hquestion
      refine .bare ?_
      simpa [Avoids, List.cons_prefix_iff] using hquestion
  · intro h
    cases h with
    | bare h =>
      rw [group?]
      all_goals exact fun _ => h.ne (List.mem_singleton_self ['?']) _
    | look hmark cs =>
      cases hmark with
      | ahead | notAhead => rfl
      | behind hc => obtain rfl | rfl := hc <;> rfl
    | @named mark cs _ hmark hlook h =>
      obtain rfl | rfl := hmark
      · refine .trans ?_ h
        rw [List.singleton_append, group?]
        · rfl
        · exact (hlook rfl).ne (by decide : ['='] ∈ _)
        · exact (hlook rfl).ne (by decide : ['!'] ∈ _)
      · exact h
    | flags hmarks h =>
      rw [group?, h]
      · exact hmarks.ne (by decide : ['='] ∈ _)
      · exact hmarks.ne (by decide : ['!'] ∈ _)
      · exact fun _ => hmarks.ne (by decide : ['<'] ∈ _) _
      · exact fun _ => hmarks.ne (by decide : ['<'] ∈ _) _
      · exact hmarks.ne (by decide : ['<'] ∈ _)
      · exact hmarks.ne (by decide : ['P', '<'] ∈ _)

/-- A group that is nothing but open is no longer than what follows its parenthesis. -/
theorem group?_length {cs : List Char} {n : Nat} (h : group? cs = some (.open, n)) :
    0 < n ∧ n ≤ cs.length + 1 := by
  cases group?_eq_iff.mp h with
  | bare => exact ⟨Nat.one_pos, by omega⟩
  | look hmark => cases hmark
  | named _ _ hname =>
    obtain ⟨-, rfl⟩ := nameLength_eq_zero_of_namedGroup? hname
    exact ⟨Nat.one_pos, by omega⟩
  | flags _ hflags =>
    obtain ⟨letters, rest, rfl, -, ⟨hkind, -⟩ | ⟨hkind, -⟩ | ⟨-, hpos, hle⟩⟩ :=
      flagGroup?_cases hflags
    · cases hkind
    · cases hkind
    · rw [List.length_cons, List.length_append]
      exact ⟨hpos, by omega⟩

/-! ## Elements by their first characters -/

theorem next?_escape {c : Char} (hk : c ≠ 'k') (hdigit : c.isDigit = false ∨ c = '0')
    (cs : List Char) : next? ('\\' :: c :: cs) = some (.escape, 2) := by
  have hdigit' : ¬(c.isDigit ∧ c ≠ '0') := by
    rintro ⟨h, hne⟩
    exact hdigit.elim (fun hfalse => Bool.false_ne_true (hfalse.symm.trans h)) hne
  rw [next?]
  · rw [if_neg hk, if_neg hdigit']
  · exact fun _ h => absurd h hk

theorem next?_backref {d : Char} (hd : d.isDigit = true) (hzero : d ≠ '0') (cs : List Char) :
    next? ('\\' :: d :: cs) = some (.backref, 2 + (cs.takeWhile Char.isDigit).length) := by
  have hk : d ≠ 'k' := by
    rintro rfl
    cases hd
  rw [next?]
  · rw [if_neg hk, if_pos ⟨hd, hzero⟩]
  · exact fun _ h => absurd h hk

theorem next?_brace {cs : List Char} (h : cs.head? ≠ some '\x7b') :
    next? ('\x7b' :: cs) = some (.brace, 1) := by
  rw [next?]
  rintro cs rfl
  exact h rfl

theorem next?_braces {cs : List Char} (h : nameLength cs = 0) :
    next? ('\x7b' :: '\x7b' :: cs) = some (.brace, 1) := by
  rw [next?, h]
  rfl

theorem next?_brace_iff {cs : List Char} : next? ('\x7b' :: cs) = some (.brace, 1) ↔
    ∀ ds, cs = '\x7b' :: ds → nameLength ds = 0 := by
  constructor
  · rintro h ds rfl
    rw [next?] at h
    split at h
    · assumption
    · split at h <;> cases h
  · intro h
    by_cases hhead : cs.head? = some '\x7b'
    · obtain ⟨ds, rfl⟩ : ∃ ds, cs = '\x7b' :: ds := ⟨cs.tail, List.eq_cons_of_mem_head? hhead⟩
      exact next?_braces (h ds rfl)
    · exact next?_brace hhead

theorem next?_open {cs : List Char} (h : cs.head? ≠ some '?') :
    next? ('(' :: cs) = some (.open, 1) :=
  group?_eq_iff.mpr (.bare (avoids_singleton_iff.mpr h))

theorem next?_named {name mark : List Char} (hmark : mark = [] ∨ mark = ['P'])
    (hname : isWord name = true) (cs : List Char) :
    next? ('(' :: '?' :: mark ++ '<' :: name ++ '>' :: cs) =
      some (.namedOpen, mark.length + name.length + 4) := by
  have hend : ∀ c, ('>' :: cs).head? = some c → isNamePart c = false := by
    rintro c ⟨⟩
    rfl
  have hmarks : Avoids [['='], ['!']] (name ++ '>' :: cs) :=
    Avoids.append (.of_forall (fun c hc => isNamePart_of_mem hname hc) (by decide)) (by decide) cs
  have hgroup : namedGroup? (mark.length + 2) (name ++ '>' :: cs) =
      some (.namedOpen, mark.length + name.length + 4) := by
    rw [namedGroup?_append hname hend, List.head?_cons, if_pos rfl]
    congr 2
    omega
  rw [List.append_assoc]
  exact group?_eq_iff.mpr (.named hmark (fun _ => hmarks) hgroup)

/-- Flags that a parenthesis or a colon follows. -/
theorem next?_flags {letters : List Char} (h : ∀ c ∈ letters, isFlag c = true) (cs : List Char) :
    (letters ≠ [] → next? ('(' :: '?' :: letters ++ ')' :: cs) =
      some (.flags, letters.length + 3)) ∧
      next? ('(' :: '?' :: letters ++ ':' :: cs) = some (.uncapturedOpen, letters.length + 3) := by
  have hmarks : Avoids [['='], ['!'], ['<'], ['P', '<']] letters := .of_forall h (by decide)
  have hread {c : Char} (hc : ∀ mark ∈ [['='], ['!'], ['<'], ['P', '<']], c ∉ mark)
      {found : LexemeKind × Nat} (hgroup : flagGroup? (letters ++ c :: cs) = some found) :
      next? ('(' :: '?' :: letters ++ c :: cs) = some found :=
    group?_eq_iff.mpr (.flags (hmarks.append hc cs) hgroup)
  constructor
  · intro hne
    refine hread (by decide) ?_
    rw [flagGroup?_append h (by rintro c ⟨⟩; rfl), if_neg (by simp), if_neg hne, List.head?_cons,
      if_pos rfl]
  · refine hread (by decide) ?_
    rw [flagGroup?_append h (by rintro c ⟨⟩; rfl), List.head?_cons, if_pos rfl]

/-! ## Elements that end at their own end -/

/-- The kinds of elements that end at their own end, whatever stands behind them. -/
def isClosed : LexemeKind → Bool
  | .literal | .backref | .brace | .open => false
  | _ => true

/-- The texts of elements that end at their own end. -/
inductive HasText : LexemeKind → List Char → Prop
  | namedBackref {name : List Char} (hname : isWord name = true) :
    HasText .namedBackref ('\\' :: 'k' :: '<' :: (name ++ ['>']))
  | escape {c : Char} (hk : c ≠ 'k') (hdigit : c.isDigit = false ∨ c = '0') :
    HasText .escape ['\\', c]
  | charClass {inside : List Char}
    (hclass : charClass? inside = some (.charClass, inside.length + 1)) :
    HasText .charClass ('[' :: inside)
  | namedOpen {mark name : List Char} (hmark : mark = [] ∨ mark = ['P'])
    (hname : isWord name = true) :
    HasText .namedOpen ('(' :: '?' :: mark ++ '<' :: name ++ ['>'])
  | lookaheadOpen : HasText .lookaheadOpen ['(', '?', '=']
  | negativeLookaheadOpen : HasText .negativeLookaheadOpen ['(', '?', '!']
  | lookbehindOpen {c : Char} (hc : c = '=' ∨ c = '!') :
    HasText .lookbehindOpen ['(', '?', '<', c]
  | uncapturedOpen {letters : List Char} (hletters : ∀ c ∈ letters, isFlag c = true) :
    HasText .uncapturedOpen ('(' :: '?' :: letters ++ [':'])
  | flags {letters : List Char} (hletters : ∀ c ∈ letters, isFlag c = true)
    (hne : letters ≠ []) : HasText .flags ('(' :: '?' :: letters ++ [')'])
  | close : HasText .close [')']
  | alternate : HasText .alternate ['|']
  | reference {name : List Char} (hname : isWord name = true) :
    HasText .reference ('\x7b' :: '\x7b' :: (name ++ ['\x7d', '\x7d']))

namespace HasText
variable {kind : LexemeKind} {text : List Char}

/-- An element that ends at its own end is the same in front of any source. -/
theorem next?_append (h : HasText kind text) (more : List Char) :
    next? (text ++ more) = some (kind, text.length) := by
  cases h with
  | @namedBackref name hname =>
    obtain ⟨hlength, hne⟩ := nameLength_append hname ('>' :: more) (by simp [isNamePart])
    have hsplit : '\\' :: 'k' :: '<' :: (name ++ ['>']) ++ more =
        '\\' :: 'k' :: '<' :: (name ++ '>' :: more) := by simp
    have hhead : ((name ++ '>' :: more).drop name.length).head? = some '>' := by
      rw [List.drop_left]
      rfl
    rw [hsplit, next?, hlength, if_pos ⟨hne, hhead⟩]
    simp
  | escape hk hdigit => exact next?_escape hk hdigit more
  | charClass hclass => exact (charClass?_append hclass more).2.2
  | @namedOpen mark name hmark hname =>
    have hnext := next?_named hmark hname more
    simpa [Nat.add_assoc, Nat.add_comm, Nat.add_left_comm] using hnext
  | lookaheadOpen | negativeLookaheadOpen | close | alternate => rfl
  | lookbehindOpen hc => obtain rfl | rfl := hc <;> rfl
  | uncapturedOpen hletters => simpa using (next?_flags hletters more).2
  | flags hletters hne => simpa using (next?_flags hletters more).1 hne
  | @reference name hname =>
    obtain ⟨hlength, hne⟩ := nameLength_append hname ('\x7d' :: '\x7d' :: more)
      (by simp [isNamePart])
    have hsplit : '\x7b' :: '\x7b' :: (name ++ ['\x7d', '\x7d']) ++ more =
        '\x7b' :: '\x7b' :: (name ++ '\x7d' :: '\x7d' :: more) := by simp
    have htake : ((name ++ '\x7d' :: '\x7d' :: more).drop name.length).take 2 =
        ['\x7d', '\x7d'] := by
      rw [List.drop_left]
      rfl
    rw [hsplit, next?, hlength]
    split
    · rename_i hzero
      exact absurd hzero hne
    · rw [if_pos htake]
      simp

theorem isClosed (h : HasText kind text) : kind.isClosed = true := by
  cases h <;> rfl

theorem ne_nil (h : HasText kind text) : text ≠ [] := by
  cases h <;> exact List.cons_ne_nil _ _

end HasText

/-! ## The element at the front of a source -/

/-- The element at the front of a source, by its kind. -/
inductive Heads : LexemeKind → Nat → List Char → Prop
  | closed {kind : LexemeKind} {text : List Char} (htext : HasText kind text) (rest : List Char) :
    Heads kind text.length (text ++ rest)
  /-- A numbered backreference takes in all digits behind it. -/
  | backref {d : Char} {ds rest : List Char} (hd : d.isDigit = true) (hzero : d ≠ '0')
    (hds : ∀ c ∈ ds, c.isDigit = true) (hrest : ∀ c ∈ rest.head?, c.isDigit = false) :
    Heads .backref (ds.length + 2) ('\\' :: d :: (ds ++ rest))
  | brace (rest : List Char) : Heads .brace 1 ('\x7b' :: rest)
  | opens {rest : List Char} {n : Nat} (hgroup : group? rest = some (.open, n)) :
    Heads .open n ('(' :: rest)
  | literal {c : Char} {rest : List Char} {n : Nat} (hplain : isPlain c = true) :
    Heads .literal n (c :: rest)

theorem heads_of_group? {cs : List Char} {kind : LexemeKind} {n : Nat}
    (h : group? cs = some (kind, n)) : Heads kind n ('(' :: cs) := by
  cases group?_eq_iff.mp h with
  | bare => exact .opens h
  | look hmark cs =>
    cases hmark with
    | ahead => exact .closed .lookaheadOpen cs
    | notAhead => exact .closed .negativeLookaheadOpen cs
    | behind hc => exact .closed (.lookbehindOpen hc) cs
  | named hmark _ hgroup =>
    obtain ⟨-, rfl, rfl⟩ | ⟨name, rest, rfl, hname, rfl, rfl⟩ := namedGroup?_cases hgroup
    · exact .opens h
    · have hheads := Heads.closed (.namedOpen hmark hname) rest
      simpa [Nat.add_assoc, Nat.add_comm, Nat.add_left_comm] using hheads
  | flags _ hgroup =>
    obtain ⟨letters, rest, rfl, hletters, ⟨rfl, rfl, hend⟩ | ⟨rfl, rfl, hend, hne⟩ | ⟨rfl, -, -⟩⟩ :=
      flagGroup?_cases hgroup
    · obtain ⟨rest, rfl⟩ := List.head?_eq_some_iff.mp hend
      have hheads := Heads.closed (.uncapturedOpen hletters) rest
      simpa using hheads
    · obtain ⟨rest, rfl⟩ := List.head?_eq_some_iff.mp hend
      have hheads := Heads.closed (.flags hletters hne) rest
      simpa using hheads
    · exact .opens h

/-- A backslash names a group by its number, or escapes the character behind it. -/
theorem heads_of_escape {c : Char} {cs : List Char} {kind : LexemeKind} {n : Nat} (hk : c ≠ 'k')
    (h : next? ('\\' :: c :: cs) = some (kind, n)) : Heads kind n ('\\' :: c :: cs) := by
  by_cases hdigit : c.isDigit = true ∧ c ≠ '0'
  · obtain ⟨ds, rest, rfl, hds, hrest⟩ := Regex.Flags.exists_span Char.isDigit cs
    rw [next?_backref hdigit.1 hdigit.2, (Regex.Flags.takeWhile_append_of_head? hds hrest).1,
      Nat.add_comm] at h
    cases h
    exact .backref hdigit.1 hdigit.2 hds hrest
  · have hescape : c.isDigit = false ∨ c = '0' := by
      by_cases hzero : c = '0'
      · exact .inr hzero
      · exact .inl (Bool.eq_false_iff.mpr fun h => hdigit ⟨h, hzero⟩)
    rw [next?_escape hk hescape] at h
    cases h
    exact .closed (.escape hk hescape) cs

/-- What is read at the front of a source stands there. -/
theorem heads_of_next? {cs : List Char} {kind : LexemeKind} {n : Nat}
    (h : next? cs = some (kind, n)) : Heads kind n cs := by
  have hnext := h
  unfold next? at h
  split at h
  · cases h
  · cases h
  · dsimp only at h
    split at h
    · rename_i hname
      obtain ⟨name, rest, rfl, hlength, hname⟩ := exists_name_before hname.1
        (List.singleton_prefix_iff_head?_eq_some.mpr hname.2)
      rw [hlength] at h
      cases h
      have hheads := Heads.closed (.namedBackref hname) rest
      simpa using hheads
    · cases h
  · split at h
    · cases h
    · rename_i hk
      exact heads_of_escape hk hnext
  · obtain ⟨rfl, inside, rest, rfl, rfl, hinside⟩ := exists_charClass h
    exact .closed (.charClass hinside) rest
  · exact heads_of_group? h
  · cases h
    exact .closed .close _
  · cases h
    exact .closed .alternate _
  · split at h
    · cases h
      exact .brace _
    · rename_i hne
      split at h
      · rename_i hclose
        obtain ⟨name, rest, rfl, hlength, hname⟩ := exists_name_before hne
          (List.prefix_iff_eq_take.mpr hclose.symm)
        rw [hlength] at h
        cases h
        have hheads := Heads.closed (.reference hname) rest
        simpa using hheads
      · cases h
  · cases h
    exact .brace _
  · rename_i c cs hend _ hescape hclass hgroup hclose halternate _ hbrace
    cases h
    have hbackslash : c ≠ '\\' := by
      rintro rfl
      cases cs with
      | nil => exact hend rfl rfl
      | cons c cs => exact hescape c cs rfl rfl
    refine .literal ?_
    simpa [isPlain, hbackslash] using ⟨hclass, hgroup, hclose, hbrace, halternate⟩

theorem exists_open {cs : List Char} {n : Nat} (h : next? cs = some (.open, n)) :
    ∃ rest, cs = '(' :: rest ∧ group? rest = some (.open, n) := by
  cases heads_of_next? h with
  | closed htext => cases htext.isClosed
  | opens hgroup => exact ⟨_, rfl, hgroup⟩

/-- What is read as a literal begins with a character that means nothing. -/
theorem isPlain_of_next? {c : Char} {cs : List Char} {n : Nat}
    (h : next? (c :: cs) = some (.literal, n)) : isPlain c = true := by
  generalize hsource : c :: cs = ds at h
  cases heads_of_next? h with
  | closed htext => cases htext.isClosed
  | literal hplain =>
    obtain ⟨rfl, -⟩ := List.cons.inj hsource
    exact hplain

/-- A literal is made of such characters only. -/
theorem forall_isPlain_of_next? {text cs : List Char}
    (h : next? (text ++ cs) = some (.literal, text.length)) : ∀ c ∈ text, isPlain c = true := by
  cases text with
  | nil => exact nofun
  | cons c text =>
    have hplain := isPlain_of_next? h
    rw [List.cons_append, next?_plain hplain, List.length_cons] at h
    have hlength := (Prod.mk.inj (Option.some.inj h)).2
    have htake : (text ++ cs).takeWhile isPlain = text :=
      (List.prefix_of_prefix_length_le (List.takeWhile_prefix _) (List.prefix_append _ _)
        (by omega)).eq_of_length (by omega)
    refine List.forall_mem_cons.mpr ⟨hplain, ?_⟩
    rw [← htake]
    exact List.all_eq_true.mp List.all_takeWhile

/-- An element is not empty and no longer than its source. -/
theorem next?_length {cs : List Char} {kind : LexemeKind} {n : Nat}
    (h : next? cs = some (kind, n)) : 0 < n ∧ n ≤ cs.length := by
  cases heads_of_next? h with
  | closed htext => exact ⟨List.length_pos_of_ne_nil htext.ne_nil, by simp⟩
  | backref => simp
  | brace => simp
  | opens hgroup => exact group?_length hgroup
  | @literal c rest n hplain =>
    rw [next?_plain hplain] at h
    obtain rfl := (Prod.mk.inj (Option.some.inj h)).2
    have hle := (List.takeWhile_sublist isPlain (l := rest)).length_le
    rw [List.length_cons]
    omega

end LexemeKind
end Tinct
