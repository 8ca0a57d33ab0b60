import Tinct.Pattern.Lexeme
import Tinct.Proofs.Regex.Element
import Tinct.Proofs.Regex.Extent.Class

/-!
# The texts of elements

Where white space counts, an element of a source is read from a text of its own, whatever stands
behind it:

* `Element.HasText`: what the text of each element looks like;
* `Flags.element?_text`: an element has such a text, from which it is read in front of any source
  that goes on alike;
* `Flags.element?_append`: an element is the same in a longer source.
-/

namespace Tinct.Regex

/-- What the text of an element looks like. -/
inductive Element.HasText : Element → List Char → Prop
  | char {i : Item} {c : Char} (hplain : LexemeKind.isPlain c = true) : HasText (.item i) [c]
  | escape {i : Item} {c : Char} {tail : List Char} (hdigit : c.isDigit = false) (hk : c ≠ 'k')
    (htail : IsTail tail) : HasText (.item i) ('\\' :: c :: tail)
  | bracketed {i : Item} {inside : List Char} (hlast : inside.getLast? = some ']')
    (hflat : isFlat inside = true → ∀ more,
      LexemeKind.charClass? (inside ++ more) = some (.charClass, 1 + inside.length)) :
    HasText (.item i) ('[' :: inside)
  | opened : HasText (.numbered none) ['(']
  | named {name mark : List Char} (hmark : mark = [] ∨ mark = ['P']) :
    HasText (.numbered (some (.ofList name))) ('(' :: '?' :: mark ++ '<' :: name ++ ['>'])
  | flags {f : Flags} {letters : List Char} (hletters : ∀ c ∈ letters, LexemeKind.isFlag c = true)
    (hne : letters ≠ []) : HasText (.flags f) ('(' :: '?' :: letters ++ [')'])
  | flagged {f : Flags} {letters : List Char}
    (hletters : ∀ c ∈ letters, LexemeKind.isFlag c = true) :
    HasText (.flagged f) ('(' :: '?' :: letters ++ [':'])
  | close : HasText .close [')']
  | alternate : HasText .alternate ['|']
  | repeated {min : Nat} {max : Option Nat} {lazyMark : Bool} {tail : List Char}
    (htail : IsTail tail) (hne : tail ≠ []) : HasText (.repeated min max lazyMark) tail

theorem Element.HasText.ne_nil {e : Element} {text : List Char} (h : e.HasText text) :
    text ≠ [] := by
  cases h with
  | repeated _ hne => exact hne
  | _ => exact List.cons_ne_nil _ _

namespace Flags

/-- Element `e` is read from `text` in front of `rest`, and of any source that goes on alike. -/
structure ElementText (f : Flags) (e : Element) (text rest : List Char) : Prop where
  hasText : e.HasText text
  opened : e = .numbered none → rest.head? ≠ some '?'
  read : ∀ more, GoesOnLike rest more → f.element? (text ++ more) = some (e, more)

section extent
variable {f : Flags} {cs rest text : List Char} {e : Element}

/-! ## Classes -/

theorem classLength?_cons {c : Char} (hbracket : c ≠ ']') (hbackslash : c ≠ '\\')
    (cs : List Char) :
    LexemeKind.classLength? (c :: cs) = (LexemeKind.classLength? cs).map (· + 1) := by
  rw [LexemeKind.classLength?]
  · exact hbracket
  · exact fun _ _ h => absurd h hbackslash

/-- A closing bracket behind members closes a class. -/
theorem classLength?_members {members : List Char} (h : IsMembers members)
    (hflat : isFlat members = true) (more : List Char) :
    LexemeKind.classLength? (members ++ ']' :: more) = some (members.length + 1) := by
  induction h with
  | nil => rfl
  | @char c cs hbracket hbackslash _ ih =>
    by_cases hopen : c = '['
    · subst hopen
      cases hflat
    · rw [isFlat_cons hbackslash hopen] at hflat
      rw [List.cons_append, classLength?_cons hbracket hbackslash, ih hflat]
      rfl
  | escape c _ ih =>
    obtain ⟨hc, hflat⟩ := (Bool.and_eq_true _ _).mp hflat
    rw [List.cons_append, List.cons_append, LexemeKind.classLength?, if_neg (bne_iff_ne.mp hc),
      ih hflat]
    rfl

theorem charClass?_eq {caret body : List Char} {n : Nat}
    (hcaret : caret = ['^'] ∨ caret = [] ∧ body.head? ≠ some '^')
    (hlength : LexemeKind.classLength? (if body.head? = some ']' then body.drop 1 else body) =
      some n) :
    LexemeKind.charClass? (caret ++ body) =
      some (.charClass, 1 + caret.length + (if body.head? = some ']' then 1 else 0) + n) := by
  have hcaret' : (if (caret ++ body).head? = some '^' then 1 else 0) = caret.length ∧
      (caret ++ body).drop caret.length = body := by
    obtain rfl | ⟨rfl, hne⟩ := hcaret
    · exact ⟨rfl, rfl⟩
    · exact ⟨if_neg hne, rfl⟩
  unfold LexemeKind.charClass?
  dsimp only
  rw [hcaret'.1, hcaret'.2, ← List.drop_drop, hcaret'.2]
  split at hlength
  · rename_i hbracket
    rw [if_pos hbracket, hlength]
    rfl
  · rename_i hbracket
    rw [if_neg hbracket, List.drop_zero, hlength]
    rfl

theorem isMembers_caret {caret : List Char} {p : Prop} (h : caret = ['^'] ∨ caret = [] ∧ p) :
    IsMembers caret := by
  obtain rfl | ⟨rfl, -⟩ := h
  · exact .of_forall (List.forall_mem_singleton.mpr (by decide))
  · exact .nil

theorem isMembers_dashes {start : List Char} (h : ∀ c ∈ start, c = '-') : IsMembers start :=
  .of_forall fun c hc => by
    rw [h c hc]
    decide

/-- A class that holds no other class ends where the reader of elements sees it end. -/
theorem charClass?_flat {caret start members behind : List Char}
    (hcaret : caret = ['^'] ∨ caret = [] ∧ (start ++ (members ++ ']' :: behind)).head? ≠ some '^')
    (hstart : IsStart start (members ++ ']' :: behind)) (hmembers : IsMembers members)
    (hflat : isFlat (caret ++ start ++ (members ++ [']'])) = true) (more : List Char) :
    LexemeKind.charClass? (caret ++ (start ++ (members ++ ']' :: more))) =
      some (.charClass, 1 + (caret ++ start ++ (members ++ [']'])).length) := by
  have hhead : (members ++ ']' :: more).head? = (members ++ ']' :: behind).head? := by
    cases members <;> rfl
  have hcaret' : caret = ['^'] ∨ caret = [] ∧
      (start ++ (members ++ ']' :: more)).head? ≠ some '^' := by
    rwa [List.head?_append, hhead, ← List.head?_append]
  rw [List.append_assoc] at hflat
  have hflat := ((isMembers_caret hcaret).isFlat_append hflat).2
  obtain rfl | ⟨hdashes, hnil⟩ := hstart
  · have hmembersFlat : isFlat members = true := (hmembers.isFlat_append hflat).1
    rw [charClass?_eq hcaret' (n := members.length + 1) (by
      rw [List.singleton_append, List.head?_cons, if_pos rfl]
      exact classLength?_members hmembers hmembersFlat more)]
    simp
    omega
  · have hbody : IsMembers (start ++ members) := (isMembers_dashes hdashes).append hmembers
    rw [← List.append_assoc] at hflat
    have hne : (start ++ (members ++ ']' :: more)).head? ≠ some ']' := by
      cases start with
      | nil => exact fun h => hnil rfl (hhead.symm.trans h)
      | cons c start =>
        intro h
        have hc := hdashes c (List.mem_cons_self ..)
        rw [Option.some.inj h] at hc
        cases hc
    rw [charClass?_eq hcaret' (n := (start ++ members).length + 1) (by
      rw [if_neg hne, ← List.append_assoc]
      exact classLength?_members hbody (hbody.isFlat_append hflat).1 more), if_neg hne]
    simp
    omega

theorem class_text (hf : f.verbose = false) {o : OpenClass} {s : CharSet} {height n : Nat}
    {behind : List Char} (hopen : f.openClass? cs = some (o, behind))
    (hclass : f.readClass? n o [] behind = some (s, height, rest)) :
    ∃ inside, cs = inside ++ rest ∧ inside.getLast? = some ']' ∧
      (isFlat inside = true → ∀ more,
        LexemeKind.charClass? (inside ++ more) = some (.charClass, 1 + inside.length)) ∧
      ∀ m more, inside.length ≤ m → ∃ behind', f.openClass? (inside ++ more) = some (o, behind') ∧
        f.readClass? m o [] behind' = some (s, height, more) := by
  obtain ⟨text, rfl, htext⟩ := readClass?_text hf hclass
  obtain ⟨caret, start, rfl, hcaret, hstart, hopen'⟩ := openClass?_text hf hopen
  refine ⟨caret ++ start ++ text, by simp, getLast?_append_of htext.last _, fun hflat more => ?_,
    fun m more hm => ⟨text ++ more, ?_, htext.read m more ?_⟩⟩
  · have htextFlat : isFlat text = true := by
      rw [List.append_assoc] at hflat
      have hflat := (isMembers_caret hcaret).isFlat_append hflat
      obtain rfl | ⟨hdashes, -⟩ := hstart
      · exact hflat.2
      · exact ((isMembers_dashes hdashes).isFlat_append hflat.2).2
    obtain ⟨members, rfl, hmembers⟩ := htext.members rfl htextFlat
    simp only [List.append_assoc, List.singleton_append] at hcaret hstart ⊢
    rw [charClass?_flat hcaret hstart hmembers hflat more]
    simp
  · rw [List.append_assoc]
    exact hopen' _ (head?_append_congr htext.last rest more)
  · rw [List.length_append] at hm
    omega

theorem bracketed_text (hf : f.verbose = false) {o : OpenClass} {s : CharSet}
    {height n : Nat} {behind : List Char} (hopen : f.openClass? cs = some (o, behind))
    (hclass : f.readClass? n o [] behind = some (s, height, rest)) :
    ∃ text, '[' :: cs = text ++ rest ∧
      f.ElementText (.item ⟨.ofSet s, height, true⟩) text rest := by
  obtain ⟨inside, rfl, hlast, hflat, hmore⟩ := class_text hf hopen hclass
  refine ⟨'[' :: inside, rfl, .bracketed hlast hflat, nofun, fun more _ => ?_⟩
  obtain ⟨behind', hopen', hclass'⟩ := hmore (inside ++ more).length more (by simp)
  refine (congrArg (Option.bind · _) hopen').trans ?_
  exact congrArg (Option.bind · _) hclass'

/-! ## Repetitions -/

/-- A repetition, with the question mark that may belong to it. -/
theorem repetition_text {min : Nat} {max : Option Nat} (front : List Char)
    (hfront : ∀ mark, (∀ c ∈ mark, isInert c = true) → IsTail (front ++ mark)) (hne : front ≠ [])
    (hread : ∀ more, f.element? (front ++ more) = some (repetition min max more))
    (h : some (repetition min max cs) = some (e, rest)) :
    ∃ text, front ++ cs = text ++ rest ∧ f.ElementText e text rest := by
  have hne' (mark : List Char) := List.append_ne_nil_of_left_ne_nil hne mark
  replace h := Option.some.inj h
  unfold repetition at h
  split at h
  · rename_i hlazy
    cases h
    obtain ⟨cs, rfl⟩ := List.head?_eq_some_iff.mp hlazy
    refine ⟨front ++ ['?'], by simp, .repeated (hfront _ (inert_of_all rfl)) (hne' _), nofun,
      fun more _ => ?_⟩
    rw [List.append_assoc, hread]
    exact congrArg some (if_pos rfl)
  · rename_i hgreedy
    cases h
    refine ⟨front ++ [], by simp, .repeated (hfront [] nofun) (hne' []), nofun,
      fun more hlike => ?_⟩
    rw [List.append_nil, hread]
    exact congrArg some (if_neg fun hmark => hgreedy (hlike.question hmark))

theorem sign_text {min : Nat} {max : Option Nat} {c : Char} (hc : isInert c = true)
    (hread : ∀ more, f.element? (c :: more) = some (repetition min max more))
    (h : some (repetition min max cs) = some (e, rest)) :
    ∃ text, c :: cs = text ++ rest ∧ f.ElementText e text rest :=
  repetition_text [c] (fun _ hmark => .inert (List.forall_mem_cons.mpr ⟨hc, hmark⟩))
    (List.cons_ne_nil _ _) hread h

theorem blank_inert {c : Char} (h : Unicode.blank.contains c = true) : isInert c = true :=
  isInert_of (by decide) h

theorem isDigit_inert {c : Char} (h : c.isDigit = true) : isInert c = true :=
  isInert_of (by decide) h

theorem takeWhile_append_of_head? {p : Char → Bool} {as bs : List Char}
    (h : ∀ a ∈ as, p a = true) (hbs : ∀ b ∈ bs.head?, p b = false) :
    (as ++ bs).takeWhile p = as ∧ (as ++ bs).dropWhile p = bs := by
  have hstop : bs.takeWhile p = [] ∧ bs.dropWhile p = bs := by
    cases bs with
    | nil => exact ⟨rfl, rfl⟩
    | cons b bs =>
      have hb := hbs b rfl
      simp [hb]
  rw [List.takeWhile_append_of_pos h, List.dropWhile_append_of_pos h, hstop.1, hstop.2,
    List.append_nil]
  exact ⟨rfl, rfl⟩

/-- A source is characters with a property, and what goes on without it. -/
theorem exists_span (p : Char → Bool) (cs : List Char) :
    ∃ as bs, cs = as ++ bs ∧ (∀ a ∈ as, p a = true) ∧ ∀ b ∈ bs.head?, p b = false := by
  refine ⟨cs.takeWhile p, cs.dropWhile p, List.takeWhile_append_dropWhile.symm,
    List.all_eq_true.mp List.all_takeWhile, fun b hb => ?_⟩
  have hnot := List.head?_dropWhile_not p cs
  rw [Option.mem_def.mp hb] at hnot
  simpa using hnot

theorem blank_of_isDigit {c : Char} (h : c.isDigit = true) : Unicode.blank.contains c = false := by
  have hbounds : 48 ≤ c.toNat ∧ c.toNat ≤ 57 := by
    rw [Char.isDigit, Bool.and_eq_true, decide_eq_true_eq, decide_eq_true_eq] at h
    exact h
  have hall : ∀ n < 58, 48 ≤ n → CharSet.holds Unicode.blank.ranges n = false := by decide
  exact hall c.toNat (by omega) hbounds.1

theorem digits_eq (hf : f.verbose = false) {n : Nat} (hn : cs.length ≤ n) :
    readDecimal?.digits f n cs = (cs.takeWhile Char.isDigit, cs.dropWhile Char.isDigit) := by
  induction n generalizing cs with
  | zero =>
    obtain rfl : cs = [] := List.eq_nil_of_length_eq_zero (Nat.le_zero.mp hn)
    rfl
  | succ n ih =>
    cases cs with
    | nil => rfl
    | cons c cs =>
      rw [readDecimal?.digits, next_eq hf, List.drop_one, List.tail_cons,
        ih (Nat.le_of_succ_le_succ hn)]
      by_cases hc : c.isDigit = true
      · simp [hc]
      · simp [hc]

/-- A number, with white space around it that the source does not go on with. -/
theorem readDecimal?_spaced (hf : f.verbose = false) {blanks digits blanks' more : List Char}
    (hblanks : ∀ c ∈ blanks, Unicode.blank.contains c = true)
    (hdigits : ∀ c ∈ digits, c.isDigit = true) (hne : digits ≠ [])
    (hblanks' : ∀ c ∈ blanks', Unicode.blank.contains c = true)
    (hmore : ∀ c ∈ more.head?, Unicode.blank.contains c = false ∧
      (blanks' = [] → c.isDigit = false)) :
    f.readDecimal? (blanks ++ (digits ++ (blanks' ++ more))) =
      if digits.foldl (fun n d => n * 10 + (d.toNat - 48)) 0 < Nat.pow 2 32 then
        some (digits.foldl (fun n d => n * 10 + (d.toNat - 48)) 0, more)
      else none := by
  have hfront := @takeWhile_append_of_head? _ _ (digits ++ (blanks' ++ more)) hblanks (by
    obtain ⟨d, digits, rfl⟩ := List.exists_cons_of_ne_nil hne
    intro c hc
    cases hc
    exact blank_of_isDigit (hdigits d (List.mem_cons_self ..)))
  have hmiddle := @takeWhile_append_of_head? _ _ (blanks' ++ more) hdigits (by
    intro c hc
    cases blanks' with
    | nil => exact (hmore c hc).2 rfl
    | cons b blanks' =>
      cases hc
      refine Bool.eq_false_iff.mpr fun hdigit => ?_
      cases (hblanks' _ (List.mem_cons_self ..)).symm.trans (blank_of_isDigit hdigit))
  have hback := takeWhile_append_of_head? hblanks' fun c hc => (hmore c hc).1
  unfold readDecimal?
  simp only [digits_eq hf (Nat.le_refl _), skip_eq hf]
  rw [hfront.2, hmiddle.1, hmiddle.2]
  split
  · rename_i heq
    exact absurd (Prod.mk.inj heq).1 hne
  · rename_i heq
    obtain ⟨rfl, rfl⟩ := Prod.mk.inj heq
    rw [hback.2]

theorem readDecimal?_text (hf : f.verbose = false) {n : Nat}
    (h : f.readDecimal? cs = some (n, rest)) :
    ∃ text, cs = text ++ rest ∧ (∀ c ∈ text, isInert c = true) ∧
      ∀ more, more.head? = rest.head? → f.readDecimal? (text ++ more) = some (n, more) := by
  obtain ⟨blanks, behind, rfl, hblanks, hbehind⟩ := exists_span Unicode.blank.contains cs
  obtain ⟨digits, behind, rfl, hdigits, hbehind'⟩ := exists_span Char.isDigit behind
  obtain ⟨blanks', behind, rfl, hblanks', hend⟩ := exists_span Unicode.blank.contains behind
  have hne : digits ≠ [] := by
    rintro rfl
    unfold readDecimal? at h
    simp only [digits_eq hf (Nat.le_refl _), (takeWhile_append_of_head? hblanks hbehind).2] at h
    rw [(@takeWhile_append_of_head? _ [] _ nofun hbehind').1] at h
    cases h
  have hmore {more : List Char} (hlike : more.head? = behind.head?) :
      ∀ c ∈ more.head?, Unicode.blank.contains c = false ∧ (blanks' = [] → c.isDigit = false) := by
    rw [hlike]
    refine fun c hc => ⟨hend c hc, ?_⟩
    rintro rfl
    exact hbehind' c hc
  rw [readDecimal?_spaced hf hblanks hdigits hne hblanks' (hmore rfl)] at h
  split at h
  · rename_i hlt
    cases h
    refine ⟨blanks ++ (digits ++ blanks'), by simp, ?_, fun more hlike => ?_⟩
    · exact List.forall_mem_append.mpr ⟨fun c hc => blank_inert (hblanks c hc),
        List.forall_mem_append.mpr ⟨fun c hc => isDigit_inert (hdigits c hc),
          fun c hc => blank_inert (hblanks' c hc)⟩⟩
    · rw [List.append_assoc, List.append_assoc,
        readDecimal?_spaced hf hblanks hdigits hne hblanks' (hmore hlike), if_pos hlt]
  · cases h

theorem readCount?_text (hf : f.verbose = false) {min : Nat} {max : Option Nat}
    (h : f.readCount? ('\x7b' :: cs) = some (min, max, rest)) :
    ∃ text rest', cs = text ++ rest ∧ rest = '\x7d' :: rest' ∧ (∀ c ∈ text, isInert c = true) ∧
      ∀ more, f.readCount? ('\x7b' :: text ++ '\x7d' :: more) =
        some (min, max, '\x7d' :: more) := by
  obtain ⟨⟨n, behind⟩, hmin, hcount⟩ := Option.bind_eq_some_iff.mp h
  rw [next_eq hf, List.drop_one, List.tail_cons] at hmin
  obtain ⟨text, rfl, htext, hread⟩ := readDecimal?_text hf hmin
  unfold readCount?
  simp only [next_eq hf, List.drop_one, List.cons_append, List.tail_cons] at hcount ⊢
  split at hcount
  · -- a second number or none
    rename_i behind
    rw [List.tail_cons] at hcount
    split at hcount
    · rename_i hbrace
      cases hcount
      obtain ⟨rest', rfl⟩ := List.head?_eq_some_iff.mp hbrace
      refine ⟨text ++ [','], rest', by simp, rfl, ?_, fun more => ?_⟩
      · exact List.forall_mem_append.mpr ⟨htext, inert_of_all rfl⟩
      · rw [List.append_assoc, List.singleton_append, hread (',' :: '\x7d' :: more) rfl]
        rfl
    · rename_i hbrace
      obtain ⟨⟨m, behind'⟩, hmax, hcount⟩ := Option.bind_eq_some_iff.mp hcount
      dsimp only at hcount
      split at hcount
      · rename_i hend
        cases hcount
        obtain ⟨rest', rfl⟩ := List.head?_eq_some_iff.mp hend.1
        obtain ⟨text', rfl, htext', hread'⟩ := readDecimal?_text hf hmax
        refine ⟨text ++ ',' :: text', rest', by simp, rfl, ?_, fun more => ?_⟩
        · exact List.forall_mem_append.mpr ⟨htext, List.forall_mem_cons.mpr ⟨by decide, htext'⟩⟩
        · rw [List.append_assoc, List.cons_append, hread (',' :: (text' ++ '\x7d' :: more)) rfl]
          have hhead : (text' ++ '\x7d' :: more).head? ≠ some '\x7d' := by
            cases text' <;> exact hbrace
          simp only [Option.bind_eq_bind, Option.bind_some, List.tail_cons]
          rw [if_neg hhead, hread' ('\x7d' :: more) rfl]
          exact if_pos ⟨rfl, hend.2⟩
      · cases hcount
  · rename_i behind
    cases hcount
    refine ⟨text, behind, rfl, rfl, htext, fun more => ?_⟩
    rw [hread ('\x7d' :: more) rfl]
    rfl
  · cases hcount

theorem counted_text (hf : f.verbose = false) {min : Nat} {max : Option Nat}
    {behind : List Char} (hcount : f.readCount? ('\x7b' :: cs) = some (min, max, behind))
    (h : some (repetition min max (f.next behind)) = some (e, rest)) :
    ∃ text, '\x7b' :: cs = text ++ rest ∧ f.ElementText e text rest := by
  obtain ⟨count, behind, rfl, rfl, hcount', hmore⟩ := readCount?_text hf hcount
  rw [next_eq hf, List.drop_one, List.tail_cons] at h
  have hinert : ∀ c ∈ count ++ ['\x7d'], isInert c = true :=
    List.forall_mem_append.mpr ⟨hcount', inert_of_all rfl⟩
  have htext := repetition_text (f := f) ('\x7b' :: (count ++ ['\x7d']))
    (fun mark hmark => .braced (List.forall_mem_append.mpr ⟨hinert, hmark⟩) (by simp))
    (List.cons_ne_nil _ _) (fun more => ?_) h
  · simpa using htext
  · rw [List.cons_append, List.append_assoc, List.singleton_append]
    refine (congrArg (Option.bind · _) (hmore more)).trans ?_
    dsimp only [Option.bind_some]
    rw [next_eq hf]
    rfl

/-! ## Groups -/

theorem set?_isFlag {f f' : Flags} {c : Char} {on : Bool} (h : f.set? c on = some f') :
    LexemeKind.isFlag c = true ∧ c ≠ 'P' := by
  unfold set? at h
  split at h
  case h_8 => cases h
  all_goals decide

theorem readFlags?_text {f' : Flags} {on : Bool} {seen : List Char}
    (h : readFlags? f on seen cs = some (f', rest)) :
    ∃ letters c rest', cs = letters ++ rest ∧ rest = c :: rest' ∧ (c = ':' ∨ c = ')') ∧
      (∀ l ∈ letters, LexemeKind.isFlag l = true ∧ l ≠ 'P') ∧
      ∀ more, readFlags? f on seen (letters ++ c :: more) = some (f', c :: more) := by
  induction cs generalizing f on seen with
  | nil => cases h
  | cons d cs ih =>
    unfold readFlags? at h
    split at h
    · rename_i hend
      split at h
      · cases h
      · rename_i hdash
        cases h
        refine ⟨[], d, cs, rfl, rfl, hend, List.forall_mem_nil _, fun more => ?_⟩
        rw [List.nil_append, readFlags?, if_pos hend, if_neg hdash]
    rename_i hend
    split at h
    · cases h
    rename_i hseen
    split at h
    · rename_i hdash
      obtain ⟨letters, c, rest', rfl, hrest, hc, hletters, hread⟩ := ih h
      refine ⟨d :: letters, c, rest', rfl, hrest, hc, List.forall_mem_cons.mpr ⟨?_, hletters⟩,
        fun more => ?_⟩
      · rw [hdash]
        decide
      · rw [List.cons_append, readFlags?, if_neg hend, if_neg hseen, if_pos hdash, hread]
    · rename_i hdash
      obtain ⟨f'', hset, hflags⟩ := Option.bind_eq_some_iff.mp h
      obtain ⟨letters, c, rest', rfl, hrest, hc, hletters, hread⟩ := ih hflags
      refine ⟨d :: letters, c, rest', rfl, hrest, hc,
        List.forall_mem_cons.mpr ⟨set?_isFlag hset, hletters⟩, fun more => ?_⟩
      rw [List.cons_append, readFlags?, if_neg hend, if_neg hseen, if_neg hdash, hset]
      exact hread more

theorem readName?_text {name : String} (h : readName? cs = some (name, rest)) :
    ∃ cs', name = .ofList cs' ∧ cs = cs' ++ '>' :: rest ∧
      ∀ more, readName? (cs' ++ '>' :: more) = some (name, more) := by
  obtain ⟨front, behind, rfl, hfront, hbehind⟩ := exists_span (· != '>') cs
  have hspan {more : List Char} (hmore : ∀ b ∈ more.head?, (b != '>') = false) :=
    takeWhile_append_of_head? hfront hmore
  unfold readName? at h
  rw [(hspan hbehind).1, (hspan hbehind).2] at h
  split at h
  · rename_i c name' d rest'
    split at h
    · rename_i hname
      cases h
      obtain rfl : d = '>' := by simpa using hbehind d rfl
      refine ⟨c :: name', rfl, rfl, fun more => ?_⟩
      have hmore : ∀ b ∈ ('>' :: more).head?, (b != '>') = false := fun b hb => by
        cases hb
        rfl
      unfold readName?
      rw [(hspan hmore).1, (hspan hmore).2]
      exact if_pos hname
    · cases h
  · cases h

/-- A group with a name. -/
def namedGroup? (cs : List Char) : Option (Element × List Char) :=
  (readName? cs).map fun (name, rest) => (.numbered (some name), rest)

/-- A group with flags, or flags up to the end of the group. -/
def flagGroup? (f : Flags) (cs : List Char) : Option (Element × List Char) := do
  let (flags, rest) ← readFlags? f true [] cs
  match rest with
  | ')' :: rest => if cs.head? = some ')' then none else some (.flags flags, rest)
  | _ => some (.flagged flags, rest.drop 1)

theorem namedGroup?_text (h : namedGroup? cs = some (e, rest)) :
    ∃ name, e = .numbered (some (.ofList name)) ∧ cs = name ++ '>' :: rest ∧
      ∀ more, namedGroup? (name ++ '>' :: more) = some (e, more) := by
  obtain ⟨⟨name, rest'⟩, hname, heq⟩ := Option.map_eq_some_iff.mp h
  cases heq
  obtain ⟨cs', rfl, rfl, hread⟩ := readName?_text hname
  exact ⟨cs', rfl, rfl, fun more => congrArg (Option.map _) (hread more)⟩

theorem flagGroup?_text (h : f.flagGroup? cs = some (e, rest)) :
    ∃ letters c, cs = letters ++ c :: rest ∧
      (∀ l ∈ letters, LexemeKind.isFlag l = true ∧ l ≠ 'P') ∧
      (c = ')' ∧ letters ≠ [] ∧ (∃ f', e = .flags f') ∨ c = ':' ∧ ∃ f', e = .flagged f') ∧
      ∀ more, f.flagGroup? (letters ++ c :: more) = some (e, more) := by
  obtain ⟨⟨flags, behind⟩, hflags, hgroup⟩ := Option.bind_eq_some_iff.mp h
  obtain ⟨letters, c, rest', rfl, rfl, hc, hletters, hread⟩ := readFlags?_text hflags
  obtain rfl | rfl := hc
  · have hcolon (more : List Char) :
        f.flagGroup? (letters ++ ':' :: more) = some (.flagged flags, more) := by
      unfold flagGroup?
      rw [hread]
      rfl
    rw [hcolon] at h
    cases h
    exact ⟨letters, ':', rfl, hletters, .inr ⟨rfl, flags, rfl⟩, hcolon⟩
  · have hclose (more : List Char) : f.flagGroup? (letters ++ ')' :: more) =
        if (letters ++ ')' :: more).head? = some ')' then none else some (.flags flags, more) := by
      unfold flagGroup?
      rw [hread]
      rfl
    rw [hclose] at h
    split at h
    · cases h
    · rename_i hbare
      cases h
      have hne : letters ≠ [] := by
        rintro rfl
        exact hbare rfl
      refine ⟨letters, ')', rfl, hletters, .inl ⟨rfl, hne, flags, rfl⟩, fun more => ?_⟩
      rw [List.head?_append_of_ne_nil _ hne] at hbare
      rw [hclose, List.head?_append_of_ne_nil _ hne]
      exact if_neg hbare

/-! ### What follows the parenthesis -/

theorem opening?_of_head? (hf : f.verbose = false) (h : cs.head? ≠ some '?') :
    f.opening? cs = some (.numbered none, cs) := by
  unfold opening?
  rw [skip_eq hf]
  split
  case h_8 => rfl
  all_goals exact absurd rfl h

theorem opening?_question (hf : f.verbose = false) (c : Char) (cs : List Char) :
    f.opening? ('?' :: c :: cs) =
      if c = '=' ∨ c = '!' then none
      else if c = '<' ∧ (cs.head? = some '=' ∨ cs.head? = some '!') then none
      else if c = '<' then namedGroup? cs
      else if c = 'P' ∧ cs.head? = some '<' then namedGroup? (cs.drop 1)
      else f.flagGroup? (c :: cs) := by
  unfold opening?
  rw [skip_eq hf]
  split
  case h_6 cs' hequals hmark heq =>
    obtain ⟨rfl, rfl⟩ : c = '<' ∧ cs = cs' := by simpa using heq
    have hhead : ¬(cs.head? = some '=' ∨ cs.head? = some '!') := by
      rintro (h | h)
      · exact hequals _ (List.head?_eq_some_iff.mp h).choose_spec
      · exact hmark _ (List.head?_eq_some_iff.mp h).choose_spec
    simp [hhead, namedGroup?]
  case h_7 cs' hequals hmark _ _ hnamed hless heq =>
    obtain rfl : c :: cs = cs' := by simpa using heq
    have hlook : ¬(c = '=' ∨ c = '!') := by
      rintro (rfl | rfl)
      · exact hequals _ rfl
      · exact hmark _ rfl
    have hangle : c ≠ '<' := by
      rintro rfl
      exact hless _ rfl
    have hP : ¬(c = 'P' ∧ cs.head? = some '<') := by
      rintro ⟨rfl, h⟩
      exact hnamed _ (congrArg _ (List.head?_eq_some_iff.mp h).choose_spec)
    rw [if_neg hlook, if_neg fun h => hangle h.1, if_neg hangle, if_neg hP]
    rfl
  all_goals simp_all [namedGroup?]

/-- A group with a name, which a letter may stand in front of. -/
theorem opening?_angle (hf : f.verbose = false) {mark : List Char}
    (hmark : mark = [] ∨ mark = ['P'])
    (hlook : mark = [] → ¬(cs.head? = some '=' ∨ cs.head? = some '!')) :
    f.opening? ('?' :: mark ++ '<' :: cs) = namedGroup? cs := by
  obtain rfl | rfl := hmark
  · simp [opening?_question hf, hlook rfl]
  · simp [opening?_question hf]

theorem opening?_letters (hf : f.verbose = false) {letters : List Char} {c : Char}
    (hletters : ∀ l ∈ letters, LexemeKind.isFlag l = true ∧ l ≠ 'P') (hc : c = ':' ∨ c = ')') :
    f.opening? ('?' :: letters ++ c :: cs) = f.flagGroup? (letters ++ c :: cs) := by
  obtain ⟨d, ds, hcons, hd⟩ : ∃ d ds, letters ++ c :: cs = d :: ds ∧
      d ≠ '=' ∧ d ≠ '!' ∧ d ≠ '<' ∧ d ≠ 'P' := by
    cases letters with
    | nil => exact ⟨c, cs, rfl, by obtain rfl | rfl := hc <;> decide⟩
    | cons d letters =>
      obtain ⟨hflag, hP⟩ := hletters d (List.mem_cons_self ..)
      refine ⟨d, _, rfl, ?_, ?_, ?_, hP⟩
      all_goals
        rintro rfl
        cases hflag
  rw [List.cons_append, hcons, opening?_question hf]
  simp [hd]

theorem named_text (hf : f.verbose = false) {mark : List Char} (hmark : mark = [] ∨ mark = ['P'])
    (hlook : mark = [] → ¬(cs.head? = some '=' ∨ cs.head? = some '!'))
    (h : namedGroup? cs = some (e, rest)) :
    ∃ text, '?' :: mark ++ '<' :: cs = text ++ rest ∧ f.ElementText e ('(' :: text) rest := by
  obtain ⟨name, rfl, rfl, hread⟩ := namedGroup?_text h
  refine ⟨'?' :: mark ++ '<' :: name ++ ['>'], by simp, .named hmark, by simp, fun more _ => ?_⟩
  have hhead : (name ++ '>' :: more).head? = (name ++ '>' :: rest).head? := by
    cases name <;> rfl
  refine .trans ?_ ((opening?_angle hf hmark (by rwa [hhead])).trans (hread more))
  simp [element?]

theorem flags_text (hf : f.verbose = false) (h : f.flagGroup? cs = some (e, rest)) :
    ∃ text, '?' :: cs = text ++ rest ∧ f.ElementText e ('(' :: text) rest := by
  obtain ⟨letters, c, rfl, hletters, hc, hread⟩ := flagGroup?_text h
  have hend : c = ':' ∨ c = ')' := hc.symm.imp And.left And.left
  refine ⟨'?' :: letters ++ [c], by simp, ?_, ?_, fun more _ => ?_⟩
  · obtain ⟨rfl, hne, f', rfl⟩ | ⟨rfl, f', rfl⟩ := hc
    · exact .flags (fun l hl => (hletters l hl).1) hne
    · exact .flagged fun l hl => (hletters l hl).1
  · rintro rfl
    obtain ⟨-, -, f', he⟩ | ⟨-, f', he⟩ := hc <;> cases he
  · refine .trans ?_ ((opening?_letters hf hletters hend).trans (hread more))
    simp [element?]

/-- What a parenthesis opens has a text of its own. -/
theorem opening?_text (hf : f.verbose = false) (h : f.opening? cs = some (e, rest)) :
    ∃ text, cs = text ++ rest ∧ f.ElementText e ('(' :: text) rest := by
  by_cases hquestion : cs.head? = some '?'
  · obtain ⟨cs, rfl⟩ := List.head?_eq_some_iff.mp hquestion
    cases cs with
    | nil =>
      rw [opening?, skip_eq hf] at h
      cases h
    | cons c cs =>
      rw [opening?_question hf] at h
      split at h
      · cases h
      split at h
      · cases h
      rename_i hlook
      split at h
      · rename_i hangle
        subst hangle
        exact named_text hf (.inl rfl) (fun _ hmark => hlook ⟨rfl, hmark⟩) h
      split at h
      · rename_i hP
        obtain ⟨rfl, hP⟩ := hP
        obtain ⟨cs, rfl⟩ := List.head?_eq_some_iff.mp hP
        exact named_text hf (.inr rfl) nofun h
      · exact flags_text hf h
  · rw [opening?_of_head? hf hquestion] at h
    cases h
    exact ⟨[], rfl, .opened, fun _ => hquestion,
      fun more hmore => opening?_of_head? hf fun hmark => hquestion (hmore.question hmark)⟩

/-! ## Elements -/

/-- A literal of one character. -/
theorem literal_text {expr? : Option Expr} {c : Char} (hplain : LexemeKind.isPlain c = true)
    (hread : ∀ more, f.element? (c :: more) =
      expr?.map fun e => (Element.item ⟨e, 0, true⟩, more))
    (h : (expr?.map fun e => (Element.item ⟨e, 0, true⟩, cs)) = some (e, rest)) :
    ∃ text, c :: cs = text ++ rest ∧ f.ElementText e text rest := by
  obtain ⟨e', rfl, heq⟩ := Option.map_eq_some_iff.mp h
  cases heq
  exact ⟨[c], rfl, .char hplain, nofun, fun more _ => hread more⟩

theorem escape_text (hf : f.verbose = false) {atom : Atom} {behind : List Char}
    (hescape : f.readEscape? cs = some (atom, behind))
    (h : ((f.atomExpr? atom).map fun e => (Element.item ⟨e, 0, true⟩, behind)) = some (e, rest)) :
    ∃ text, '\\' :: cs = text ++ rest ∧ f.ElementText e text rest := by
  obtain ⟨c, tail, rfl, htail, hdigit, hk, hmore⟩ := readEscape?_text hf hescape
  obtain ⟨e', he, heq⟩ := Option.map_eq_some_iff.mp h
  cases heq
  refine ⟨'\\' :: c :: tail, rfl, .escape hdigit hk htail, nofun, fun more hlike => ?_⟩
  refine (congrArg (Option.bind · _) (hmore more (.inr hlike))).trans ?_
  rw [Option.bind_some]
  exact congrArg (Option.map _) he

/-- An element that has been read has a text. -/
theorem element?_text (hf : f.verbose = false) (h : f.element? cs = some (e, rest)) :
    ∃ text, cs = text ++ rest ∧ f.ElementText e text rest := by
  unfold element? at h
  dsimp only at h
  split at h
  · cases h
  · obtain ⟨text, rfl, htext⟩ := opening?_text hf h
    exact ⟨'(' :: text, rfl, htext⟩
  · cases h
    exact ⟨[')'], rfl, .close, nofun, fun _ _ => rfl⟩
  · cases h
    exact ⟨['|'], rfl, .alternate, nofun, fun _ _ => rfl⟩
  · obtain ⟨⟨o, behind⟩, hopen, h⟩ := Option.bind_eq_some_iff.mp h
    obtain ⟨⟨s, height, behind'⟩, hclass, h⟩ := Option.bind_eq_some_iff.mp h
    cases h
    exact bracketed_text hf hopen hclass
  · exact sign_text (by decide) (fun _ => rfl) h
  · exact sign_text (by decide) (fun _ => rfl) h
  · exact sign_text (by decide) (fun _ => rfl) h
  · obtain ⟨⟨min, max, behind⟩, hcount, h⟩ := Option.bind_eq_some_iff.mp h
    exact counted_text hf hcount h
  · obtain ⟨⟨atom, behind⟩, hescape, h⟩ := Option.bind_eq_some_iff.mp h
    exact escape_text hf hescape h
  · exact literal_text (by decide) (fun _ => rfl) h
  · exact literal_text (by decide) (fun _ => rfl) h
  · exact literal_text (by decide) (fun _ => rfl) h
  · refine literal_text ?_ (fun more => ?_) h
    · simp_all [LexemeKind.isPlain]
    · simp only [element?]

/-- An element is the same whatever stands behind it but a question mark, which may belong to a
parenthesis or a repetition, and an opening brace, which may belong to a word boundary. -/
theorem element?_append (hf : f.verbose = false) (h : f.element? cs = some (e, rest))
    {more : List Char} (hquestion : more.head? ≠ some '?') (hbrace : more.head? ≠ some '\x7b') :
    f.element? (cs ++ more) = some (e, rest ++ more) := by
  obtain ⟨text, rfl, htext⟩ := element?_text hf h
  rw [List.append_assoc]
  exact htext.read _ (.append rest hquestion hbrace)

end extent
end Flags
end Tinct.Regex
