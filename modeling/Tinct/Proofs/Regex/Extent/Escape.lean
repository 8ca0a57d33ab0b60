import Mathlib.Data.List.Basic
import Tinct.Proofs.Unicode.PropertyName
import Tinct.Regex.Parser

/-!
# The texts of escapes

Where white space counts, an escape is read from a text of its own, whatever stands behind it:

* `IsTail`: what an escape is made of behind its first character;
* `GoesOnLike`: two sources that an element in front of them cannot tell apart;
* `Flags.readEscape?_cons`: an escape is a number, a property or a sign;
* `Flags.readEscape?_text`: the text of an escape.
-/

namespace Tinct.Regex

/-- Inert characters, and maybe an opening brace in front of them. -/
def IsTail (text : List Char) : Prop :=
  ∃ brace inside, text = brace ++ inside ∧ (∀ c ∈ inside, isInert c = true) ∧
    (brace = [] ∨ brace = ['\x7b'] ∧ inside ≠ [])

theorem IsTail.inert {text : List Char} (h : ∀ c ∈ text, isInert c = true) : IsTail text :=
  ⟨[], text, rfl, h, .inl rfl⟩

theorem IsTail.braced {text : List Char} (h : ∀ c ∈ text, isInert c = true) (hne : text ≠ []) :
    IsTail ('\x7b' :: text) :=
  ⟨['\x7b'], text, rfl, h, .inr ⟨rfl, hne⟩⟩

/-- `more` goes on as `rest` does, as far as an element in front of it can tell: no question mark
stands there that would belong to the element, and no brace that would belong to a word boundary. -/
structure GoesOnLike (rest more : List Char) : Prop where
  question : more.head? = some '?' → rest.head? = some '?'
  brace : more.head? = some '\x7b' →
    rest.head? = some '\x7b' ∧ ∀ c ∈ (rest.drop 1).head?, (more.drop 1).head? = some c

/-- A source goes on alike in a longer one, if what is behind it could not belong to the element. -/
theorem GoesOnLike.append {more : List Char} (rest : List Char) (hquestion : more.head? ≠ some '?')
    (hbrace : more.head? ≠ some '\x7b') : GoesOnLike rest (rest ++ more) := by
  match rest with
  | [] => exact ⟨fun h => absurd h hquestion, fun h => absurd h hbrace⟩
  | [_] => exact ⟨id, fun h => ⟨h, nofun⟩⟩
  | _ :: _ :: _ => exact ⟨id, fun h => ⟨h, fun _ hc => hc⟩⟩

namespace Flags

section extent
variable {f : Flags} {cs rest : List Char}

theorem skip_eq (hf : f.verbose = false) (cs : List Char) : f.skip cs = cs := by
  rw [skip, hf]
  rfl

theorem next_eq (hf : f.verbose = false) (cs : List Char) : f.next cs = cs.drop 1 :=
  skip_eq hf _

theorem peek?_eq (hf : f.verbose = false) (cs : List Char) : f.peek? cs = (cs.drop 1).head? := by
  rw [peek?, hf]
  rfl

/-! ## Numbers and names -/

theorem hexValue?_inert {c : Char} {d : Nat} (h : hexValue? c = some d) : isInert c = true :=
  isInert_of (p := fun c => (hexValue? c).isSome) (by decide) (h ▸ rfl)

theorem hexDigits?_text (hf : f.verbose = false) {n value v : Nat}
    (h : f.hexDigits? n value cs = some (v, rest)) :
    ∃ text, cs = text ++ rest ∧ (∀ c ∈ text, isInert c = true) ∧
      ∀ more, f.hexDigits? n value (text ++ more) = some (v, more) := by
  induction n generalizing value cs with
  | zero =>
    cases h
    exact ⟨[], rfl, nofun, fun _ => rfl⟩
  | succ n ih =>
    obtain ⟨c, hc, h⟩ := Option.bind_eq_some_iff.mp h
    obtain ⟨d, hd, h⟩ := Option.bind_eq_some_iff.mp h
    obtain ⟨cs, rfl⟩ := List.head?_eq_some_iff.mp hc
    rw [next_eq hf] at h
    obtain ⟨text, rfl, htext, hmore⟩ := ih h
    refine ⟨c :: text, rfl, List.forall_mem_cons.mpr ⟨hexValue?_inert hd, htext⟩, fun more => ?_⟩
    rw [hexDigits?, List.cons_append, List.head?_cons, Option.bind_eq_bind, Option.bind_some, hd,
      next_eq hf]
    exact hmore more

theorem hexBraced?_cons (hf : f.verbose = false) (n : Nat) (value? : Option Nat) (c : Char)
    (cs : List Char) : f.hexBraced? (n + 1) value? (c :: cs) =
      if c = '\x7d' then value?.map (·, cs)
      else (hexValue? c).bind fun d =>
        f.hexBraced? n (some (value?.getD 0 * 16 + d)) cs := by
  by_cases hc : c = '\x7d'
  · subst hc
    simp [hexBraced?, next_eq hf]
  · simp [hexBraced?, next_eq hf, hc]

theorem hexBraced?_text (hf : f.verbose = false) {n : Nat} {value? : Option Nat} {v : Nat}
    (h : f.hexBraced? n value? cs = some (v, rest)) :
    ∃ text, cs = text ++ rest ∧ text ≠ [] ∧ (∀ c ∈ text, isInert c = true) ∧
      ∀ m more, text.length ≤ m → f.hexBraced? m value? (text ++ more) = some (v, more) := by
  induction n generalizing value? cs with
  | zero => cases h
  | succ n ih =>
    cases cs with
    | nil => cases h
    | cons c cs =>
      rw [hexBraced?_cons hf] at h
      split at h
      · rename_i hc
        obtain ⟨v', rfl, heq⟩ := Option.map_eq_some_iff.mp h
        cases heq
        subst hc
        refine ⟨['\x7d'], rfl, List.cons_ne_nil _ _, inert_of_all rfl, fun m more hm => ?_⟩
        obtain ⟨m, rfl⟩ := Nat.exists_eq_add_of_le' hm
        rw [List.length_singleton, List.singleton_append, hexBraced?_cons hf, if_pos rfl]
        rfl
      · rename_i hc
        obtain ⟨d, hd, h⟩ := Option.bind_eq_some_iff.mp h
        obtain ⟨text, rfl, -, htext, hmore⟩ := ih h
        refine ⟨c :: text, rfl, List.cons_ne_nil _ _,
          List.forall_mem_cons.mpr ⟨hexValue?_inert hd, htext⟩, fun m more hm => ?_⟩
        rw [List.length_cons] at hm
        obtain ⟨m, rfl⟩ := Nat.exists_eq_add_of_le' (Nat.lt_of_lt_of_le (Nat.succ_pos _) hm)
        rw [List.cons_append, hexBraced?_cons hf, if_neg hc, hd]
        exact hmore m more (Nat.le_of_succ_le_succ hm)

theorem braced?_cons (hf : f.verbose = false) (n : Nat) (before : List Char) (c : Char)
    (cs : List Char) : f.braced? (n + 1) before (c :: cs) =
      if c = '\x7d' then some (before.reverse, cs) else f.braced? n (c :: before) cs := by
  by_cases hc : c = '\x7d'
  · subst hc
    simp [braced?]
  · simp [braced?, next_eq hf, hc]

theorem braced?_text (hf : f.verbose = false) {n : Nat} {before name : List Char}
    (h : f.braced? n before cs = some (name, rest)) :
    ∃ inside, name = before.reverse ++ inside ∧ cs = inside ++ '\x7d' :: rest ∧
      ∀ m more, inside.length < m →
        f.braced? m before (inside ++ '\x7d' :: more) = some (name, more) := by
  induction n generalizing before cs with
  | zero => cases h
  | succ n ih =>
    cases cs with
    | nil => cases h
    | cons c cs =>
      rw [braced?_cons hf] at h
      split at h
      · rename_i hc
        cases h
        subst hc
        refine ⟨[], (List.append_nil _).symm, rfl, fun m more hm => ?_⟩
        obtain ⟨m, rfl⟩ := Nat.exists_eq_add_one_of_ne_zero (Nat.ne_of_gt hm)
        rw [List.nil_append, braced?_cons hf, if_pos rfl]
      · rename_i hc
        obtain ⟨inside, rfl, rfl, hmore⟩ := ih h
        refine ⟨c :: inside, by simp, rfl, fun m more hm => ?_⟩
        obtain ⟨m, rfl⟩ := Nat.exists_eq_add_of_le' (Nat.lt_of_le_of_lt (Nat.zero_le _) hm)
        rw [List.cons_append, braced?_cons hf, if_neg hc]
        exact hmore m more (Nat.lt_of_succ_lt_succ hm)

/-- The assertion that a name stands for. -/
def boundary? (ascii : Bool) : String → Option Look
  | "start" => some (.wordStart ascii)
  | "end" => some (.wordEnd ascii)
  | "start-half" => some (.wordStartHalf ascii)
  | "end-half" => some (.wordEndHalf ascii)
  | _ => none

theorem boundary?_inert {ascii : Bool} {name : String} {l : Look}
    (h : boundary? ascii name = some l) : ∀ c ∈ name.toList, isInert c = true := by
  unfold boundary? at h
  split at h
  · exact inert_of_all (by decide)
  · exact inert_of_all (by decide)
  · exact inert_of_all (by decide)
  · exact inert_of_all (by decide)
  · cases h

theorem boundaryName?_cons (hf : f.verbose = false) (c : Char) (cs : List Char) :
    f.boundaryName? ('\x7b' :: c :: cs) =
      if !boundaryName?.isNameChar c then some none
      else (f.braced? ((c :: cs).length + 1) [] (c :: cs)).bind fun p =>
        (boundary? (!f.unicode) (.ofList p.1)).map fun l => some (l, p.2) := by
  unfold boundaryName?
  simp only [next_eq hf, List.drop_one, List.tail_cons]
  split
  · rfl
  · cases f.braced? ((c :: cs).length + 1) [] (c :: cs) with
    | none => rfl
    | some p =>
      dsimp only [Option.bind_some]
      generalize String.ofList p.1 = name
      split
      case h_5 hstart hend hstartHalf hendHalf =>
        rw [boundary?]
        · rfl
        · exact hstart
        · exact hend
        · exact hstartHalf
        · exact hendHalf
      all_goals rfl

/-- Either there is no name in braces, which the character behind the brace tells, or the name has a
text of its own. -/
theorem boundaryName?_text (hf : f.verbose = false) {found : Option (Look × List Char)}
    (h : f.boundaryName? ('\x7b' :: cs) = some found) :
    (found = none ∧ ∃ c cs', cs = c :: cs' ∧
      ∀ more, f.boundaryName? ('\x7b' :: c :: more) = some none) ∨
    ∃ l text rest, found = some (l, rest) ∧ cs = text ++ rest ∧ text ≠ [] ∧
      (∀ c ∈ text, isInert c = true) ∧
      ∀ more, f.boundaryName? ('\x7b' :: (text ++ more)) = some (some (l, more)) := by
  cases cs with
  | nil =>
    rw [boundaryName?] at h
    simp only [next_eq hf] at h
    cases h
  | cons c cs =>
    rw [boundaryName?_cons hf] at h
    split at h
    · rename_i hc
      cases h
      exact .inl ⟨rfl, c, cs, rfl, fun more => by rw [boundaryName?_cons hf, if_pos hc]⟩
    · rename_i hc
      obtain ⟨⟨name, rest⟩, hname, h⟩ := Option.bind_eq_some_iff.mp h
      obtain ⟨l, hl, rfl⟩ := Option.map_eq_some_iff.mp h
      obtain ⟨inside, hinside, hcs, hmore⟩ := braced?_text hf hname
      rw [List.reverse_nil, List.nil_append] at hinside
      subst hinside
      have hinert := boundary?_inert hl
      rw [String.toList_ofList] at hinert
      -- the first character is the same in any source that the name stands in front of
      obtain ⟨text, htext, hcons⟩ : ∃ text, name ++ ['\x7d'] = c :: text ∧
          ∀ more, name ++ '\x7d' :: more = c :: (text ++ more) := by
        cases name with
        | nil =>
          obtain rfl : c = '\x7d' := (List.cons.inj hcs).1
          exact ⟨[], rfl, fun _ => rfl⟩
        | cons d name =>
          obtain rfl : c = d := (List.cons.inj hcs).1
          exact ⟨name ++ ['\x7d'], rfl, fun more => by simp⟩
      refine .inr ⟨l, name ++ ['\x7d'], rest, rfl, by rw [hcs]; simp, by simp, ?_, fun more => ?_⟩
      · exact List.forall_mem_append.mpr ⟨hinert, inert_of_all rfl⟩
      · have hread := hmore ((c :: (text ++ more)).length + 1) more (by
          rw [← hcons, List.length_append]
          omega)
        rw [hcons] at hread
        rw [htext, List.cons_append, boundaryName?_cons hf, if_neg hc, hread, Option.bind_some, hl]
        rfl

/-! ## The kinds of escapes -/

/-- A character by its number, of a fixed number of digits or in braces. -/
def readNumber? (f : Flags) (digits : Nat) (byte : Bool) (cs : List Char) :
    Option (Atom × List Char) :=
  if cs.head? = some '\x7b' then do
    let (n, rest) ← f.hexBraced? (cs.length + 1) none (f.next cs)
    return (.char (← charOf? n) false, rest)
  else do
    let (n, rest) ← f.hexDigits? digits 0 cs
    return (.char (← charOf? n) byte, rest)

/-- A class by its property, which is a letter or in braces. -/
def readProperty? (f : Flags) (negated : Bool) (cs : List Char) : Option (Atom × List Char) :=
  match cs with
  | [] => none
  | '\x7b' :: inside => do
    let (name, rest) ← f.braced? (inside.length + 1) [] (f.skip inside)
    return (.set (← f.propertyClass? negated name), rest)
  | '\\' :: _ => none
  | letter :: rest => do
    let s ← (Unicode.property? letter.toString).bind (f.close? negated)
    if f.unicode then return (.set s, f.skip rest) else none

/-- What one letter or sign stands for. -/
def readSign? (f : Flags) (c : Char) (cs : List Char) : Option (Atom × List Char) :=
  if "dswDSW".toList.contains c then (f.perlClass? c).map fun s => (.set s, cs)
  else if isMeta c then some (.char c false, cs)
  else
    let ascii := !f.unicode
    match c with
    | 'a' => some (.char '\x07' false, cs)
    | 'f' => some (.char '\x0c' false, cs)
    | 't' => some (.char '\t' false, cs)
    | 'n' => some (.char '\n' false, cs)
    | 'r' => some (.char '\r' false, cs)
    | 'v' => some (.char '\x0b' false, cs)
    | 'A' => some (.look .textStart, cs)
    | 'z' => some (.look .textEnd, cs)
    | 'b' =>
      if cs.head? = some '\x7b' then
        match f.boundaryName? cs with
        | none => none
        | some none => some (.look (.wordBoundary ascii), cs)
        | some (some (l, rest)) => some (.look l, rest)
      else some (.look (.wordBoundary ascii), cs)
    | 'B' => some (.look (.notWordBoundary ascii), cs)
    | '<' => some (.look (.wordStart ascii), cs)
    | '>' => some (.look (.wordEnd ascii), cs)
    | _ => if c.toNat < 0x80 ∧ !c.isAlphanum then some (.char c false, cs) else none

theorem readEscape?_cons (f : Flags) (c : Char) (cs : List Char) :
    f.readEscape? (c :: cs) =
      if c.isDigit then none
      else if c = 'x' ∨ c = 'u' ∨ c = 'U' then
        f.readNumber? (if c = 'x' then 2 else if c = 'u' then 4 else 8) (c = 'x') (f.next (c :: cs))
      else if c = 'p' ∨ c = 'P' then f.readProperty? (c = 'P') (f.next (c :: cs))
      else f.readSign? c cs := rfl

theorem readNumber?_text (hf : f.verbose = false) {digits : Nat} (hdigits : digits ≠ 0)
    {byte : Bool} {a : Atom} (h : f.readNumber? digits byte cs = some (a, rest)) :
    ∃ tail, cs = tail ++ rest ∧ IsTail tail ∧
      ∀ more, f.readNumber? digits byte (tail ++ more) = some (a, more) := by
  unfold readNumber? at h
  split at h
  · rename_i hbrace
    obtain ⟨cs, rfl⟩ := List.head?_eq_some_iff.mp hbrace
    obtain ⟨⟨n, rest'⟩, hn, h⟩ := Option.bind_eq_some_iff.mp h
    obtain ⟨c, hc, h⟩ := Option.bind_eq_some_iff.mp h
    cases h
    rw [next_eq hf, List.drop_one, List.tail_cons] at hn
    obtain ⟨text, rfl, hne, htext, hmore⟩ := hexBraced?_text hf hn
    refine ⟨'\x7b' :: text, rfl, .braced htext hne, fun more => ?_⟩
    have hread := hmore (('\x7b' :: (text ++ more)).length + 1) more (by simp; omega)
    rw [readNumber?, List.cons_append, List.head?_cons, if_pos rfl, next_eq hf, List.drop_one,
      List.tail_cons, hread]
    exact congrArg (Option.bind · _) hc
  · rename_i hbrace
    obtain ⟨⟨n, rest'⟩, hn, h⟩ := Option.bind_eq_some_iff.mp h
    obtain ⟨c, hc, h⟩ := Option.bind_eq_some_iff.mp h
    cases h
    obtain ⟨text, rfl, htext, hmore⟩ := hexDigits?_text hf hn
    have hne : text ≠ [] := by
      rintro rfl
      obtain ⟨k, rfl⟩ := Nat.exists_eq_succ_of_ne_zero hdigits
      cases hmore []
    refine ⟨text, rfl, .inert htext, fun more => ?_⟩
    rw [List.head?_append_of_ne_nil _ hne] at hbrace
    rw [readNumber?, List.head?_append_of_ne_nil _ hne, if_neg hbrace, hmore]
    exact congrArg (Option.bind · _) hc

theorem readProperty?_text (hf : f.verbose = false) {negated : Bool} {a : Atom}
    (h : f.readProperty? negated cs = some (a, rest)) :
    ∃ tail, cs = tail ++ rest ∧ IsTail tail ∧
      ∀ more, f.readProperty? negated (tail ++ more) = some (a, more) := by
  cases cs with
  | nil => cases h
  | cons c cs =>
    unfold readProperty? at h
    simp only [skip_eq hf] at h
    by_cases hbrace : c = '\x7b'
    · subst hbrace
      obtain ⟨⟨name, rest'⟩, hname, h⟩ := Option.bind_eq_some_iff.mp h
      obtain ⟨s, hs, h⟩ := Option.bind_eq_some_iff.mp h
      cases h
      obtain ⟨inside, hinside, rfl, hmore⟩ := braced?_text hf hname
      rw [List.reverse_nil, List.nil_append] at hinside
      subst hinside
      refine ⟨'\x7b' :: (name ++ ['\x7d']), by simp, .braced ?_ (by simp), fun more => ?_⟩
      · exact List.forall_mem_append.mpr ⟨propertyClass?_inert hs, inert_of_all rfl⟩
      · have hread := hmore ((name ++ '\x7d' :: more).length + 1) more (by
          rw [List.length_append]
          omega)
        rw [List.cons_append, List.append_assoc, List.singleton_append]
        unfold readProperty?
        simp only [skip_eq hf]
        exact (congrArg (Option.bind · _) hread).trans (congrArg (Option.bind · _) hs)
    by_cases hbackslash : c = '\\'
    · subst hbackslash
      cases h
    simp only at h
    obtain ⟨s, hs, h⟩ := Option.bind_eq_some_iff.mp h
    split at h
    · rename_i hunicode
      cases h
      obtain ⟨s', hs', -⟩ := Option.bind_eq_some_iff.mp hs
      have hc : isInert c = true := by
        have hinert := Unicode.property?_inert hs'
        rw [Char.toString_eq_singleton, String.toList_singleton] at hinert
        exact hinert c (List.mem_singleton_self c)
      refine ⟨[c], rfl, .inert (List.forall_mem_singleton.mpr hc), fun more => ?_⟩
      rw [List.singleton_append]
      unfold readProperty?
      simp only [skip_eq hf]
      rw [hs]
      exact if_pos hunicode
    · cases h

/-- A word boundary, or half of one by its name in braces. -/
theorem readSign?_boundary (f : Flags) (cs : List Char) :
    f.readSign? 'b' cs =
      if cs.head? = some '\x7b' then
        (f.boundaryName? cs).map fun found =>
          (found.map fun p => (.look p.1, p.2)).getD (.look (.wordBoundary !f.unicode), cs)
      else some (.look (.wordBoundary !f.unicode), cs) := by
  rw [readSign?, if_neg (by decide), if_neg (by decide)]
  dsimp only
  refine if_congr Iff.rfl ?_ rfl
  cases f.boundaryName? cs with
  | none => rfl
  | some found => cases found <;> rfl

theorem readSign?_boundary_text (hf : f.verbose = false) {a : Atom}
    (h : f.readSign? 'b' cs = some (a, rest)) :
    ∃ tail, cs = tail ++ rest ∧ IsTail tail ∧ ∃ l, a = .look l ∧
      ∀ more, GoesOnLike rest more → f.readSign? 'b' (tail ++ more) = some (a, more) := by
  rw [readSign?_boundary] at h
  split at h
  · rename_i hbrace
    obtain ⟨cs, rfl⟩ := List.head?_eq_some_iff.mp hbrace
    obtain ⟨found, hname, h⟩ := Option.map_eq_some_iff.mp h
    obtain ⟨rfl, c, cs, rfl, hstay⟩ | ⟨l, text, rest', rfl, rfl, hne, htext, hread⟩ :=
      boundaryName?_text hf hname
    · -- the brace is not the boundary's, here or in a source that goes on alike
      cases h
      refine ⟨[], rfl, .inert nofun, _, rfl, fun more hlike => ?_⟩
      rw [List.nil_append, readSign?_boundary]
      split
      · rename_i hbrace'
        obtain ⟨more, rfl⟩ := List.head?_eq_some_iff.mp hbrace'
        obtain ⟨more, rfl⟩ := List.head?_eq_some_iff.mp ((hlike.brace rfl).2 c rfl)
        rw [hstay]
        rfl
      · rfl
    · cases h
      refine ⟨'\x7b' :: text, rfl, .braced htext hne, _, rfl, fun more _ => ?_⟩
      rw [List.cons_append, readSign?_boundary, List.head?_cons, if_pos rfl, hread]
      rfl
  · rename_i hbrace
    cases h
    refine ⟨[], rfl, .inert nofun, _, rfl, fun more hlike => ?_⟩
    rw [List.nil_append, readSign?_boundary, if_neg fun h => hbrace (hlike.brace h).1]

/-- Any other sign is the whole escape. -/
theorem readSign?_bare {c : Char} {a : Atom} (h : f.readSign? c cs = some (a, rest))
    (hb : c ≠ 'b') :
    cs = rest ∧ c ≠ 'k' ∧ ∀ more, f.readSign? c more = some (a, more) := by
  unfold readSign? at h ⊢
  split at h
  · rename_i hperl
    obtain ⟨s, hs, heq⟩ := Option.map_eq_some_iff.mp h
    cases heq
    refine ⟨rfl, ?_, fun more => ?_⟩
    · rintro rfl
      cases hperl
    · rw [if_pos hperl, hs]
      rfl
  rename_i hperl
  simp only [if_neg hperl]
  split at h
  · rename_i hmeta
    cases h
    refine ⟨rfl, ?_, fun more => if_pos hmeta⟩
    rintro rfl
    cases hmeta
  rename_i hmeta
  simp only [if_neg hmeta]
  split at h
  case h_9 => exact absurd rfl hb
  case h_13 =>
    split at h
    · rename_i hsign
      cases h
      refine ⟨rfl, ?_, fun more => if_pos hsign⟩
      rintro rfl
      exact absurd hsign (by decide)
    · cases h
  all_goals
    cases h
    exact ⟨rfl, by decide, fun _ => rfl⟩

theorem readSign?_text (hf : f.verbose = false) {c : Char} {a : Atom}
    (h : f.readSign? c cs = some (a, rest)) :
    ∃ tail, cs = tail ++ rest ∧ IsTail tail ∧ c ≠ 'k' ∧
      ∀ more, ((∀ l, a ≠ .look l) ∨ GoesOnLike rest more) →
        f.readSign? c (tail ++ more) = some (a, more) := by
  by_cases hb : c = 'b'
  · subst hb
    obtain ⟨tail, rfl, htail, l, rfl, hread⟩ := readSign?_boundary_text hf h
    exact ⟨tail, rfl, htail, by decide,
      fun more hmore => hread more (hmore.resolve_left fun hlook => hlook l rfl)⟩
  · obtain ⟨rfl, hk, hread⟩ := readSign?_bare h hb
    exact ⟨[], rfl, .inert nofun, hk, fun more _ => hread more⟩

/-- The text of an escape behind its backslash: a character, and what may stand behind that. -/
theorem readEscape?_text (hf : f.verbose = false) {a : Atom}
    (h : f.readEscape? cs = some (a, rest)) :
    ∃ c tail, cs = c :: tail ++ rest ∧ IsTail tail ∧ c.isDigit = false ∧ c ≠ 'k' ∧
      ∀ more, ((∀ l, a ≠ .look l) ∨ GoesOnLike rest more) →
        f.readEscape? (c :: tail ++ more) = some (a, more) := by
  cases cs with
  | nil => cases h
  | cons c cs =>
    rw [readEscape?_cons, next_eq hf, List.drop_one, List.tail_cons] at h
    simp only [List.cons_append, readEscape?_cons, next_eq hf, List.drop_one, List.tail_cons]
    split at h
    · cases h
    rename_i hdigit
    have hdigit' : c.isDigit = false := by simpa using hdigit
    split at h
    · rename_i hx
      have hdigits : (if c = 'x' then 2 else if c = 'u' then 4 else 8) ≠ 0 := by
        split
        · decide
        · split <;> decide
      obtain ⟨tail, rfl, htail, hmore⟩ := readNumber?_text hf hdigits h
      refine ⟨c, tail, rfl, htail, hdigit', ?_, fun more _ => ?_⟩
      · rintro rfl
        exact absurd hx (by decide)
      · rw [if_neg hdigit, if_pos hx, hmore]
    rename_i hx
    split at h
    · rename_i hp
      obtain ⟨tail, rfl, htail, hmore⟩ := readProperty?_text hf h
      refine ⟨c, tail, rfl, htail, hdigit', ?_, fun more _ => ?_⟩
      · rintro rfl
        exact absurd hp (by decide)
      · rw [if_neg hdigit, if_neg hx, if_pos hp, hmore]
    rename_i hp
    obtain ⟨tail, rfl, htail, hk, hmore⟩ := readSign?_text hf h
    refine ⟨c, tail, rfl, htail, hdigit', hk, fun more hlike => ?_⟩
    rw [if_neg hdigit, if_neg hx, if_neg hp, hmore more hlike]

end extent
end Flags
end Tinct.Regex
