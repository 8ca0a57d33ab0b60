import Tinct.Proofs.Regex.Extent.Escape

/-!
# The texts of classes

Where white space counts, a bracketed class is read from a text of its own, whatever stands behind
it:

* `IsMembers`: what stands between the brackets of a class that has no other class in it;
* `Flags.namedClass?_eq_some`: what a class by name looks like;
* `Flags.ClassText`: what is still to be read of a class, with `ClassText.cons` for whatever is read
  in front of it;
* `Flags.readClass?_text`: the text of a class up to its closing bracket.
-/

namespace Tinct.Regex

/-- Characters, and pairs of a backslash and a character. No bracket closes a class among them. -/
inductive IsMembers : List Char → Prop
  | nil : IsMembers []
  | char {c : Char} {cs : List Char} (hbracket : c ≠ ']') (hbackslash : c ≠ '\\') :
    IsMembers cs → IsMembers (c :: cs)
  | escape (c : Char) {cs : List Char} : IsMembers cs → IsMembers ('\\' :: c :: cs)

theorem IsMembers.append {as bs : List Char} (ha : IsMembers as) (hb : IsMembers bs) :
    IsMembers (as ++ bs) := by
  induction ha with
  | nil => exact hb
  | char hbracket hbackslash _ ih => exact .char hbracket hbackslash ih
  | escape c _ ih => exact .escape c ih

theorem IsMembers.of_forall {cs : List Char} (h : ∀ c ∈ cs, c ≠ ']' ∧ c ≠ '\\') :
    IsMembers cs := by
  induction cs with
  | nil => exact .nil
  | cons c cs ih =>
    obtain ⟨hc, hcs⟩ := List.forall_mem_cons.mp h
    exact .char hc.1 hc.2 (ih hcs)

theorem IsTail.isMembers {text : List Char} (h : IsTail text) : IsMembers text := by
  obtain ⟨brace, inside, rfl, hinside, hbrace⟩ := h
  refine .of_forall (List.forall_mem_append.mpr ⟨?_, fun c hc => ?_⟩)
  · obtain rfl | ⟨rfl, -⟩ := hbrace
    · exact nofun
    · exact List.forall_mem_singleton.mpr (by decide)
  · exact ⟨isInert_ne (hinside c hc) rfl, isInert_ne (hinside c hc) rfl⟩

/-- Whether no bracket opens another class, and no line end is escaped. -/
def isFlat : List Char → Bool
  | [] => true
  | '\\' :: c :: cs => c != '\n' && isFlat cs
  | '[' :: _ => false
  | _ :: cs => isFlat cs

theorem isFlat_cons {c : Char} (hbackslash : c ≠ '\\') (hbracket : c ≠ '[') (cs : List Char) :
    isFlat (c :: cs) = isFlat cs := by
  rw [isFlat]
  · exact fun _ _ h => absurd h hbackslash
  · exact hbracket

theorem IsMembers.isFlat_append {as bs : List Char} (ha : IsMembers as)
    (h : isFlat (as ++ bs) = true) : isFlat as = true ∧ isFlat bs = true := by
  induction ha with
  | nil => exact ⟨rfl, h⟩
  | @char c cs hbracket hbackslash _ ih =>
    by_cases hopen : c = '['
    · subst hopen
      cases h
    · rw [List.cons_append, isFlat_cons hbackslash hopen] at h
      rw [isFlat_cons hbackslash hopen]
      exact ih h
  | escape c _ ih =>
    obtain ⟨hc, h⟩ := (Bool.and_eq_true _ _).mp h
    exact ⟨(Bool.and_eq_true _ _).mpr ⟨hc, (ih h).1⟩, (ih h).2⟩

/-- Two sources that an item of a class in front of them cannot tell apart. -/
structure StartsLike (rest more : List Char) : Prop where
  head : more.head? = rest.head?
  dash : rest.head? = some '-' → (more.drop 1).head? = (rest.drop 1).head?

/-- Sources go on alike in front of a class's closing bracket. -/
theorem StartsLike.append {text : List Char} (h : text.getLast? = some ']')
    (rest more : List Char) :
    StartsLike (text ++ rest) (text ++ more) := by
  cases text with
  | nil => cases h
  | cons c text =>
    refine ⟨rfl, fun hdash => ?_⟩
    cases text with
    | nil =>
      cases h
      cases hdash
    | cons d text => rfl

namespace Flags

section extent
variable {f : Flags} {cs rest : List Char}

/-- No class ends with the source. -/
theorem readClass?_nil (hf : f.verbose = false) (n : Nat) (o : OpenClass)
    (outer : List OpenClass) : f.readClass? n o outer [] = none := by
  cases n with
  | zero => rfl
  | succ n => rw [readClass?, skip_eq hf]

/-! ## Items -/

theorem classAtom?_text (hf : f.verbose = false) {a : Atom}
    (h : f.classAtom? cs = some (a, rest)) (hhead : cs.head? ≠ some ']') :
    ∃ text, cs = text ++ rest ∧ text ≠ [] ∧ IsMembers text ∧
      ((∀ l, a ≠ .look l) → ∀ more, f.classAtom? (text ++ more) = some (a, more)) := by
  cases cs with
  | nil => cases h
  | cons c cs =>
    by_cases hc : c = '\\'
    · subst hc
      obtain ⟨c, tail, rfl, htail, -, -, hmore⟩ := readEscape?_text hf h
      exact ⟨'\\' :: c :: tail, rfl, List.cons_ne_nil _ _, .escape c htail.isMembers,
        fun hlook more => hmore more (.inl hlook)⟩
    · unfold classAtom? at h
      simp only at h
      cases h
      refine ⟨[c], rfl, List.cons_ne_nil _ _, .char (fun h => hhead (h ▸ rfl)) hc .nil,
        fun _ more => ?_⟩
      simp only [List.singleton_append, classAtom?]

/-- The set of a single member. -/
def single? (f : Flags) : Atom → Option CharSet
  | .look _ => none
  | .set s => some s
  | .char c byte => (f.classChar? (.char c byte)).map fun n => ⟨[⟨n, n⟩]⟩

/-- The set of a range. -/
def range? (f : Flags) (first last : Atom) : Option CharSet := do
  let lo ← f.classChar? first
  let hi ← f.classChar? last
  if lo ≤ hi then some ⟨[⟨lo, hi⟩]⟩ else none

theorem single?_look {a : Atom} {s : CharSet} (h : f.single? a = some s) (l : Look) :
    a ≠ .look l := by
  rintro rfl
  cases h

theorem range?_look {first last : Atom} {s : CharSet} (h : f.range? first last = some s)
    (l : Look) : first ≠ .look l ∧ last ≠ .look l := by
  obtain ⟨lo, hlo, h⟩ := Option.bind_eq_some_iff.mp h
  obtain ⟨hi, hhi, -⟩ := Option.bind_eq_some_iff.mp h
  constructor
  · rintro rfl
    cases hlo
  · rintro rfl
    cases hhi

theorem classItem?_eq (hf : f.verbose = false) (cs : List Char) :
    f.classItem? cs = (f.classAtom? cs).bind fun (first, rest) =>
      if rest.head? ≠ some '-' ∨ (rest.drop 1).head? = some ']' ∨
          (rest.drop 1).head? = some '-' then
        if rest.isEmpty then none else (f.single? first).map (·, rest)
      else
        (f.classAtom? (rest.drop 1)).bind fun (last, rest) =>
          (f.range? first last).map (·, rest) := by
  unfold classItem?
  refine congrArg (Option.bind _) (funext fun (first, rest) => ?_)
  simp only [skip_eq hf, peek?_eq hf, next_eq hf]
  split
  · split
    · rfl
    · cases first with
      | look l => rfl
      | set s => rfl
      | char c byte =>
        rw [single?, Option.map_map]
        rfl
  · refine congrArg (Option.bind _) (funext fun (last, rest) => ?_)
    unfold range?
    cases f.classChar? first with
    | none => rfl
    | some lo =>
      cases f.classChar? last with
      | none => rfl
      | some hi =>
        simp only [Option.bind_eq_bind, Option.bind_some]
        split <;> rfl

theorem classItem?_text (hf : f.verbose = false) {s : CharSet}
    (h : f.classItem? cs = some (s, rest)) (hhead : cs.head? ≠ some ']') :
    ∃ text, cs = text ++ rest ∧ text ≠ [] ∧ IsMembers text ∧
      ∀ more, StartsLike rest more → f.classItem? (text ++ more) = some (s, more) := by
  rw [classItem?_eq hf] at h
  obtain ⟨⟨first, behind⟩, hfirst, hitem⟩ := Option.bind_eq_some_iff.mp h
  obtain ⟨text, rfl, hne, hmembers, hread⟩ := classAtom?_text hf hfirst hhead
  dsimp only at hitem
  split at hitem
  · rename_i hsingle
    split at hitem
    · cases hitem
    rename_i hempty
    obtain ⟨s', hs, heq⟩ := Option.map_eq_some_iff.mp hitem
    cases heq
    refine ⟨text, rfl, hne, hmembers, fun more hlike => ?_⟩
    rw [classItem?_eq hf, hread (single?_look hs), Option.bind_some]
    dsimp only
    rw [hlike.head, if_pos, if_neg, hs]
    · rfl
    · rw [List.isEmpty_iff, ← List.head?_eq_none_iff] at hempty ⊢
      rwa [hlike.head]
    · by_cases hdash : rest.head? = some '-'
      · rwa [hlike.dash hdash]
      · exact .inl hdash
  · rename_i hrange
    obtain ⟨⟨last, rest'⟩, hlast, hitem⟩ := Option.bind_eq_some_iff.mp hitem
    obtain ⟨s', hs, heq⟩ := Option.map_eq_some_iff.mp hitem
    cases heq
    simp only [not_or, not_not] at hrange
    obtain ⟨hdash, hbracket, hdash'⟩ := hrange
    obtain ⟨behind, rfl⟩ := List.head?_eq_some_iff.mp hdash
    rw [List.drop_one, List.tail_cons] at hlast hbracket hdash'
    obtain ⟨text', rfl, hne', hmembers', hread'⟩ := classAtom?_text hf hlast hbracket
    refine ⟨text ++ '-' :: text', by simp, by simp, hmembers.append (.char (by decide) (by decide)
      hmembers'), fun more _ => ?_⟩
    rw [List.append_assoc, classItem?_eq hf, hread fun l => (range?_look hs l).1, Option.bind_some]
    dsimp only
    rw [List.cons_append, List.head?_cons, List.drop_one, List.tail_cons,
      hread' fun l => (range?_look hs l).2, Option.bind_some, if_neg]
    · dsimp only
      rw [hs]
      rfl
    · rw [List.head?_append_of_ne_nil _ hne'] at hbracket hdash' ⊢
      simp [hbracket, hdash']

/-! ## The start of a class -/

theorem leadingDashes_text (hf : f.verbose = false) {n : Nat} {o o' : OpenClass}
    (h : f.leadingDashes n o cs = (o', rest)) (hn : cs.length ≤ n) :
    ∃ k, cs = List.replicate k '-' ++ rest ∧ rest.head? ≠ some '-' ∧ o'.count = o.count + k ∧
      ∀ m more, more.head? ≠ some '-' → k ≤ m →
        f.leadingDashes m o (List.replicate k '-' ++ more) = (o', more) := by
  have hstop {o : OpenClass} (m : Nat) {more : List Char} (hmore : more.head? ≠ some '-') :
      f.leadingDashes m o more = (o, more) := by
    cases m with
    | zero => rfl
    | succ m => rw [leadingDashes, if_neg hmore]
  induction n generalizing o cs with
  | zero =>
    obtain rfl : cs = [] := List.eq_nil_of_length_eq_zero (Nat.le_zero.mp hn)
    cases h
    exact ⟨0, rfl, by simp, rfl, fun m more hmore _ => hstop m hmore⟩
  | succ n ih =>
    rw [leadingDashes] at h
    split at h
    · rename_i hdash
      obtain ⟨cs, rfl⟩ := List.head?_eq_some_iff.mp hdash
      rw [next_eq hf, List.drop_one, List.tail_cons] at h
      obtain ⟨k, rfl, hrest, hcount, hread⟩ := ih h (Nat.le_of_succ_le_succ hn)
      refine ⟨k + 1, rfl, hrest, ?_, fun m more hmore hm => ?_⟩
      · have hadd : (o.add (.singleton '-') 0).count = o.count + 1 := rfl
        omega
      · obtain ⟨m, rfl⟩ := Nat.exists_eq_add_of_le' (Nat.lt_of_lt_of_le k.succ_pos hm)
        rw [List.replicate_succ, List.cons_append, leadingDashes, List.head?_cons, if_pos rfl,
          next_eq hf, List.drop_one, List.tail_cons]
        exact hread m more hmore (Nat.le_of_succ_le_succ hm)
    · rename_i hdash
      cases h
      exact ⟨0, rfl, hdash, rfl, fun m more hmore _ => hstop m hmore⟩

/-- What may stand at the start of a class behind its negation: a closing bracket that is a member,
or dashes. -/
def IsStart (start rest : List Char) : Prop :=
  start = [']'] ∨ (∀ c ∈ start, c = '-') ∧ (start = [] → rest.head? ≠ some ']')

/-- The start of a class behind its negation. -/
def openMembers? (f : Flags) (negated : Bool) (cs : List Char) : Option (OpenClass × List Char) :=
  let (o, cs) := f.leadingDashes cs.length { negated } cs
  let (o, cs) :=
    if o.count = 0 ∧ cs.head? = some ']' then (o.add (.singleton ']') 0, f.next cs) else (o, cs)
  if cs.isEmpty then none else some (o, cs)

theorem openClass?_eq (hf : f.verbose = false) (cs : List Char) :
    f.openClass? cs =
      if cs.head? = some '^' then f.openMembers? true (cs.drop 1) else f.openMembers? false cs := by
  unfold openClass?
  simp only [skip_eq hf, next_eq hf]
  split <;> simp only [openMembers?, next_eq hf]

theorem openMembers?_text (hf : f.verbose = false) {negated : Bool} {o : OpenClass}
    (h : f.openMembers? negated cs = some (o, rest)) :
    ∃ start, cs = start ++ rest ∧ IsStart start rest ∧
      ∀ more, more.head? = rest.head? →
        f.openMembers? negated (start ++ more) = some (o, more) := by
  unfold openMembers? at h ⊢
  simp only [next_eq hf] at h ⊢
  cases hdashes : f.leadingDashes cs.length { negated } cs with
  | mk o' behind =>
    rw [hdashes] at h
    obtain ⟨k, rfl, hdash, hcount, hread⟩ := leadingDashes_text hf hdashes (Nat.le_refl _)
    rw [show ({ negated } : OpenClass).count = 0 from rfl, Nat.zero_add] at hcount
    dsimp only at h
    have hmore {more : List Char} (hmore : more.head? = rest.head?) (hne : ¬rest.isEmpty = true) :
        ¬more.isEmpty = true := by
      rwa [List.isEmpty_iff, ← List.head?_eq_none_iff, hmore, List.head?_eq_none_iff,
        ← List.isEmpty_iff]
    by_cases hbracket : o'.count = 0 ∧ behind.head? = some ']'
    · rw [if_pos hbracket] at h
      obtain ⟨behind, rfl⟩ := List.head?_eq_some_iff.mp hbracket.2
      obtain rfl : k = 0 := hcount.symm.trans hbracket.1
      dsimp only [List.drop_one, List.tail_cons] at h
      split at h
      · cases h
      rename_i hne
      cases h
      refine ⟨[']'], rfl, .inl rfl, fun more hlike => ?_⟩
      have hdashes' := hread ([']'] ++ more).length ([']'] ++ more) (by simp) (Nat.zero_le _)
      rw [List.replicate_zero, List.nil_append] at hdashes'
      have hopen : o'.count = 0 ∧ ([']'] ++ more).head? = some ']' := ⟨hbracket.1, rfl⟩
      rw [hdashes']
      dsimp only
      rw [if_pos hopen]
      exact if_neg (hmore hlike hne)
    · rw [if_neg hbracket] at h
      dsimp only at h
      split at h
      · cases h
      rename_i hne
      cases h
      refine ⟨List.replicate k '-', rfl, .inr ⟨fun c hc => List.eq_of_mem_replicate hc, ?_⟩,
        fun more hlike => ?_⟩
      · intro hk hhead
        rw [List.replicate_eq_nil_iff] at hk
        exact hbracket ⟨hcount.trans hk, hhead⟩
      · have hdashes' := hread (List.replicate k '-' ++ more).length more (by rwa [hlike]) (by simp)
        rw [hdashes']
        dsimp only
        rw [hlike, if_neg hbracket]
        exact if_neg (hmore hlike hne)

theorem openClass?_text (hf : f.verbose = false) {o : OpenClass}
    (h : f.openClass? cs = some (o, rest)) :
    ∃ caret start, cs = caret ++ start ++ rest ∧
      (caret = ['^'] ∨ caret = [] ∧ (start ++ rest).head? ≠ some '^') ∧ IsStart start rest ∧
      ∀ more, more.head? = rest.head? → f.openClass? (caret ++ start ++ more) = some (o, more) := by
  rw [openClass?_eq hf] at h
  split at h
  · rename_i hcaret
    obtain ⟨cs, rfl⟩ := List.head?_eq_some_iff.mp hcaret
    obtain ⟨start, hcs, hstart, hread⟩ := openMembers?_text hf h
    rw [List.drop_one, List.tail_cons] at hcs
    refine ⟨['^'], start, congrArg _ hcs, .inl rfl, hstart, fun more hmore => ?_⟩
    rw [openClass?_eq hf, List.append_assoc, List.singleton_append, List.head?_cons, if_pos rfl]
    exact hread more hmore
  · rename_i hcaret
    obtain ⟨start, rfl, hstart, hread⟩ := openMembers?_text hf h
    refine ⟨[], start, rfl, .inr ⟨rfl, hcaret⟩, hstart, fun more hmore => ?_⟩
    rw [List.nil_append, openClass?_eq hf, if_neg]
    · exact hread more hmore
    · rwa [List.head?_append, hmore, ← List.head?_append]

/-! ## Classes by name -/

/-- A character that means nothing in a class but itself. -/
def isPlain (c : Char) : Bool := !"[]&-~\\".toList.contains c

theorem all_of_asciiClass? {name : List Char} {s : CharSet}
    (h : asciiClass? (.ofList name) = some s) :
    ∀ c ∈ name, isPlain c = true ∧ c ≠ ':' ∧ c ≠ '^' := by
  obtain ⟨name', hname⟩ : ∃ name', name' = String.ofList name := ⟨_, rfl⟩
  obtain rfl : name = name'.toList := by rw [hname, String.toList_ofList]
  rw [String.ofList_toList] at h
  have hall : (name'.toList.all fun c => isPlain c && (c != ':' && c != '^')) = true := by
    unfold asciiClass? at h
    split at h
    case h_15 => cases h
    all_goals decide
  intro c hc
  simpa using List.all_eq_true.mp hall c hc

/-- The name of a class, up to the next colon, which a bracket follows. -/
def colonClass? (cs : List Char) : Option (CharSet × List Char) :=
  match cs.dropWhile (· != ':') with
  | ':' :: ']' :: rest =>
    (asciiClass? (.ofList (cs.takeWhile (· != ':')))).map fun s => (s, rest)
  | _ => none

theorem namedClass?_cons (cs : List Char) : namedClass? (':' :: cs) =
    if cs.head? = some '^' then (colonClass? (cs.drop 1)).map (true, ·)
    else (colonClass? cs).map (false, ·) := by
  have hmap (negated : Bool) (inside : List Char) :
      (match inside.dropWhile (· != ':') with
        | ':' :: ']' :: rest =>
          (asciiClass? (.ofList (inside.takeWhile (· != ':')))).map fun s => (negated, s, rest)
        | _ => none) = (colonClass? inside).map (negated, ·) := by
    unfold colonClass?
    split
    · rw [Option.map_map]
      rfl
    · rfl
  unfold namedClass?
  by_cases hcaret : cs.head? = some '^'
  · simp only [if_pos hcaret]
    exact hmap true _
  · simp only [if_neg hcaret]
    exact hmap false _

theorem colonClass?_eq_some {s : CharSet} : colonClass? cs = some (s, rest) ↔
    ∃ name : List Char, asciiClass? (.ofList name) = some s ∧ cs = name ++ ':' :: ']' :: rest := by
  constructor
  · intro h
    unfold colonClass? at h
    split at h
    · rename_i rest' hdrop
      obtain ⟨s', hs, heq⟩ := Option.map_eq_some_iff.mp h
      cases heq
      exact ⟨_, hs, by rw [← hdrop, List.takeWhile_append_dropWhile]⟩
    · cases h
  · rintro ⟨name, hname, rfl⟩
    have hcolon : ∀ c ∈ name, (c != ':') = true := fun c hc =>
      bne_iff_ne.mpr (all_of_asciiClass? hname c hc).2.1
    rw [colonClass?, List.dropWhile_append_of_pos hcolon, List.takeWhile_append_of_pos hcolon]
    simp [hname]

/-- A class by name is a colon, maybe a caret, and the name up to the next colon. -/
theorem namedClass?_eq_some {negated : Bool} {s : CharSet} :
    namedClass? cs = some (negated, s, rest) ↔
      ∃ name : List Char, asciiClass? (.ofList name) = some s ∧
        cs = ':' :: ((if negated then ['^'] else []) ++ name ++ ':' :: ']' :: rest) := by
  constructor
  · intro h
    obtain ⟨cs, rfl⟩ : ∃ cs', cs = ':' :: cs' := by
      unfold namedClass? at h
      split at h
      · exact ⟨_, rfl⟩
      · cases h
    rw [namedClass?_cons] at h
    split at h
    · rename_i hcaret
      obtain ⟨cs, rfl⟩ := List.head?_eq_some_iff.mp hcaret
      obtain ⟨p, hp, heq⟩ := Option.map_eq_some_iff.mp h
      cases heq
      obtain ⟨name, hname, rfl⟩ := colonClass?_eq_some.mp hp
      exact ⟨name, hname, rfl⟩
    · obtain ⟨p, hp, heq⟩ := Option.map_eq_some_iff.mp h
      cases heq
      obtain ⟨name, hname, rfl⟩ := colonClass?_eq_some.mp hp
      exact ⟨name, hname, rfl⟩
  · rintro ⟨name, hname, rfl⟩
    have hclass : colonClass? _ = some (s, rest) := colonClass?_eq_some.mpr ⟨name, hname, rfl⟩
    rw [namedClass?_cons]
    cases negated with
    | true => exact (if_pos rfl).trans (congrArg (Option.map _) hclass)
    | false =>
      refine (if_neg ?_).trans (congrArg (Option.map _) hclass)
      cases name with
      | nil => simp
      | cons c name =>
        exact fun h => (all_of_asciiClass? hname c (List.mem_cons_self ..)).2.2 (Option.some.inj h)

/-- A class by name has a text of its own. -/
theorem namedClass?_text {negated : Bool} {s : CharSet}
    (h : namedClass? cs = some (negated, s, rest)) :
    ∃ text, cs = text ++ rest ∧ text.getLast? = some ']' ∧
      ∀ more, namedClass? (text ++ more) = some (negated, s, more) := by
  obtain ⟨name, hname, rfl⟩ := namedClass?_eq_some.mp h
  refine ⟨':' :: ((if negated then ['^'] else []) ++ name ++ [':', ']']), by simp, ?_,
    fun more => namedClass?_eq_some.mpr ⟨name, hname, by simp⟩⟩
  rw [← List.cons_append, List.getLast?_append]
  rfl

/-- No class by name stands in front of another source than of a class's own, if that class has
ended. -/
theorem namedClass?_eq_none_of {text : List Char} (htext : text.getLast? = some ']')
    (h : namedClass? (text ++ rest) = none) (more : List Char) :
    namedClass? (text ++ more) = none := by
  refine Option.eq_none_iff_forall_ne_some.mpr fun ⟨negated, s, behind⟩ hnamed => ?_
  obtain ⟨name, hname, heq⟩ := namedClass?_eq_some.mp hnamed
  have hplain : ∀ c ∈ ':' :: ((if negated then ['^'] else []) ++ name ++ [':']),
      isPlain c = true := by
    refine List.forall_mem_cons.mpr ⟨rfl, List.forall_mem_append.mpr
      ⟨List.forall_mem_append.mpr ⟨?_, fun c hc => (all_of_asciiClass? hname c hc).1⟩,
        List.forall_mem_singleton.mpr rfl⟩⟩
    cases negated with
    | false => exact nofun
    | true => exact List.forall_mem_singleton.mpr rfl
  have hfront : text ++ more =
      ':' :: ((if negated then ['^'] else []) ++ name ++ [':']) ++ ']' :: behind := by
    rw [heq]
    simp
  obtain ⟨b, hb, -⟩ | ⟨b, rfl, hbehind⟩ := List.append_eq_append_iff.mp hfront
  · -- the class would end inside the name
    have hmem : ']' ∈ text := List.mem_of_getLast? htext
    cases hplain ']' (hb ▸ List.mem_append_left b hmem)
  · cases b with
    | nil =>
      rw [List.append_nil, ← List.cons_append, List.getLast?_append] at htext
      cases htext
    | cons d b =>
      obtain rfl : ']' = d := (List.cons.inj hbehind).1
      refine absurd (h.symm.trans ?_) (nofun : none ≠ some (negated, s, b ++ rest))
      exact namedClass?_eq_some.mpr ⟨name, hname, by simp⟩

theorem head?_append_congr {text : List Char} (h : text.getLast? = some ']')
    (rest more : List Char) : (text ++ more).head? = (text ++ rest).head? :=
  (StartsLike.append h rest more).head

theorem getLast?_append_of {text : List Char} (h : text.getLast? = some ']') (front : List Char) :
    (front ++ text).getLast? = some ']' := by
  rw [List.getLast?_append, h]
  rfl

/-! ## Whole classes -/

/-- `text` is what is still to be read of a class: `o` has been read so far, inside the classes of
`outer`. -/
structure ClassText (f : Flags) (o : OpenClass) (outer : List OpenClass) (s : CharSet)
    (height : Nat) (text : List Char) : Prop where
  last : text.getLast? = some ']'
  /-- In a class that holds no other, the first bracket that closes one is the last character. -/
  members : outer = [] → isFlat text = true → ∃ members, text = members ++ [']'] ∧ IsMembers members
  read : ∀ m more, text.length ≤ m → f.readClass? m o outer (text ++ more) = some (s, height, more)

variable {o o' p : OpenClass} {outer outer' : List OpenClass} {s s' : CharSet} {height n : Nat}
  {text : List Char}

/-- A turn of the reader adds what it reads in front of the text that is left. -/
theorem ClassText.cons {front : List Char} (h : f.ClassText o' outer' s height text)
    (hne : front ≠ [])
    (hmembers : outer = [] → isFlat (front ++ text) = true → outer' = [] ∧ IsMembers front)
    (hread : ∀ m more, f.readClass? (m + 1) o outer (front ++ (text ++ more)) =
      f.readClass? m o' outer' (text ++ more)) :
    f.ClassText o outer s height (front ++ text) where
  last := getLast?_append_of h.last front
  members houter hflat := by
    obtain ⟨houter', hfront⟩ := hmembers houter hflat
    obtain ⟨members, rfl, hback⟩ := h.members houter' (hfront.isFlat_append hflat).2
    exact ⟨front ++ members, (List.append_assoc ..).symm, hfront.append hback⟩
  read m more hm := by
    have hpos := List.length_pos_of_ne_nil hne
    rw [List.length_append] at hm
    obtain ⟨m, rfl⟩ := Nat.exists_eq_add_of_le' (show 1 ≤ m by omega)
    rw [List.append_assoc, hread]
    exact h.read m more (by omega)

/-! ### The turns of the reader -/

theorem readClass?_open (hf : f.verbose = false) (n : Nat) (o : OpenClass)
    (outer : List OpenClass) (cs : List Char) :
    f.readClass? (n + 1) o outer ('[' :: cs) =
      match namedClass? cs with
      | some (negated, s, rest) =>
        (f.close? negated s).bind fun s => f.readClass? n (o.add s 0) outer rest
      | none => (f.openClass? cs).bind fun p => f.readClass? n p.1 (o :: outer) p.2 := by
  rw [readClass?, skip_eq hf]
  rfl

theorem readClass?_close (hf : f.verbose = false) (n : Nat) (o : OpenClass)
    (outer : List OpenClass) (cs : List Char) :
    f.readClass? (n + 1) o outer (']' :: cs) =
      (f.close? o.negated (o.body f).1).bind fun s =>
        match outer with
        | [] => some (s, (o.body f).2 + 1, cs)
        | p :: outer => f.readClass? n (p.add s ((o.body f).2 + 1)) outer cs := by
  rw [readClass?, skip_eq hf]
  rfl

/-- The set operation of a sign that is written twice. -/
def operation? : Char → Option SetOp
  | '&' => some .inter
  | '-' => some .diff
  | '~' => some .symmDiff
  | _ => none

theorem readClass?_operator (hf : f.verbose = false) {c : Char} {op : SetOp}
    (hop : operation? c = some op) (n : Nat) (o : OpenClass) (outer : List OpenClass)
    (cs : List Char) :
    f.readClass? (n + 1) o outer (c :: c :: cs) = f.readClass? n (o.operator f op) outer cs := by
  rw [readClass?, skip_eq hf]
  unfold operation? at hop
  split at hop
  · cases hop; rfl
  · cases hop; rfl
  · cases hop; rfl
  · cases hop

/-- Whether an item of a class comes next. -/
def startsItem : List Char → Bool
  | [] => false
  | c :: cs => c != '[' && c != ']' && (cs.head? != some c || (operation? c).isNone)

theorem cases_of_startsItem (h : startsItem cs = false) :
    cs = [] ∨ (∃ cs', cs = '[' :: cs') ∨ (∃ cs', cs = ']' :: cs') ∨
      ∃ c op cs', operation? c = some op ∧ cs = c :: c :: cs' := by
  cases cs with
  | nil => exact .inl rfl
  | cons c cs =>
    by_cases hopen : c = '['
    · exact .inr (.inl ⟨cs, hopen ▸ rfl⟩)
    by_cases hclose : c = ']'
    · exact .inr (.inr (.inl ⟨cs, hclose ▸ rfl⟩))
    obtain ⟨hhead, hop⟩ : cs.head? = some c ∧ (operation? c).isSome = true := by
      simpa [startsItem, hopen, hclose] using h
    obtain ⟨cs, rfl⟩ := List.head?_eq_some_iff.mp hhead
    obtain ⟨op, hop⟩ := Option.isSome_iff_exists.mp hop
    exact .inr (.inr (.inr ⟨c, op, cs, hop, rfl⟩))

theorem readClass?_item (hf : f.verbose = false) (h : startsItem cs = true) (n : Nat)
    (o : OpenClass) (outer : List OpenClass) :
    f.readClass? (n + 1) o outer cs =
      (f.classItem? cs).bind fun p => f.readClass? n (o.add p.1 0) outer p.2 := by
  rw [readClass?, skip_eq hf]
  split
  case h_7 => rfl
  all_goals cases h

/-- Two characters tell what comes next. -/
theorem startsItem_append_congr (h : 2 ≤ text.length) (as bs : List Char) :
    startsItem (text ++ as) = startsItem (text ++ bs) := by
  match text, h with
  | _ :: _ :: _, _ => rfl

theorem ClassText.named {negated : Bool} (hf : f.verbose = false)
    (hnamed : namedClass? cs = some (negated, s', text ++ rest)) {s'' : CharSet}
    (hs : f.close? negated s' = some s'')
    (h : f.ClassText (o.add s'' 0) outer s height text) :
    ∃ text, '[' :: cs = text ++ rest ∧ f.ClassText o outer s height text := by
  obtain ⟨name, rfl, -, hname⟩ := namedClass?_text hnamed
  refine ⟨'[' :: name ++ text, by simp, h.cons (List.cons_ne_nil _ _) (fun _ hflat => ?_)
    fun m more => ?_⟩
  · cases hflat
  · rw [List.cons_append, readClass?_open hf, hname]
    dsimp only
    rw [hs, Option.bind_some]

theorem ClassText.nested {inner : OpenClass} (hf : f.verbose = false)
    (hnamed : namedClass? cs = none) (hopen : f.openClass? cs = some (inner, text ++ rest))
    (h : f.ClassText inner (o :: outer) s height text) :
    ∃ text, '[' :: cs = text ++ rest ∧ f.ClassText o outer s height text := by
  obtain ⟨caret, start, rfl, -, -, hread⟩ := openClass?_text hf hopen
  refine ⟨'[' :: (caret ++ start) ++ text, by simp, h.cons (List.cons_ne_nil _ _)
    (fun _ hflat => ?_) fun m more => ?_⟩
  · cases hflat
  · rw [← List.append_assoc] at hnamed
    have hnamed' := namedClass?_eq_none_of (getLast?_append_of h.last _) hnamed more
    rw [List.append_assoc] at hnamed'
    rw [List.cons_append, readClass?_open hf, hnamed']
    dsimp only
    rw [hread _ (head?_append_congr h.last rest more), Option.bind_some]

theorem ClassText.closed (hf : f.verbose = false)
    (hs : f.close? o.negated (o.body f).1 = some s) :
    f.ClassText o [] s ((o.body f).2 + 1) [']'] where
  last := rfl
  members _ _ := ⟨[], rfl, .nil⟩
  read m more hm := by
    obtain ⟨m, rfl⟩ := Nat.exists_eq_add_of_le' (show 1 ≤ m from hm)
    rw [List.singleton_append, readClass?_close hf, hs]
    rfl

theorem ClassText.close (hf : f.verbose = false)
    (hs : f.close? o.negated (o.body f).1 = some s')
    (h : f.ClassText (p.add s' ((o.body f).2 + 1)) outer s height text) :
    f.ClassText o (p :: outer) s height (']' :: text) := by
  refine h.cons (List.cons_ne_nil ']' []) nofun fun m more => ?_
  rw [List.singleton_append, readClass?_close hf, hs]
  rfl

theorem ClassText.operator {c : Char} {op : SetOp} (hf : f.verbose = false)
    (hop : operation? c = some op) (h : f.ClassText (o.operator f op) outer s height text) :
    f.ClassText o outer s height (c :: c :: text) := by
  have hc : c ≠ ']' ∧ c ≠ '\\' := by
    constructor
    all_goals
      rintro rfl
      cases hop
  exact h.cons (List.cons_ne_nil c [c])
    (fun houter _ => ⟨houter, .char hc.1 hc.2 (.char hc.1 hc.2 .nil)⟩)
    fun m more => readClass?_operator hf hop m o outer (text ++ more)

theorem ClassText.item (hf : f.verbose = false) (hstart : startsItem cs = true)
    (hitem : f.classItem? cs = some (s', text ++ rest))
    (h : f.ClassText (o.add s' 0) outer s height text) :
    ∃ text, cs = text ++ rest ∧ f.ClassText o outer s height text := by
  have hhead : cs.head? ≠ some ']' := by
    intro hhead
    obtain ⟨cs, rfl⟩ := List.head?_eq_some_iff.mp hhead
    cases hstart
  obtain ⟨item, rfl, hne, hmembers, hread⟩ := classItem?_text hf hitem hhead
  refine ⟨item ++ text, (List.append_assoc ..).symm,
    h.cons hne (fun houter _ => ⟨houter, hmembers⟩) fun m more => ?_⟩
  have hlength : 2 ≤ (item ++ text).length := by
    have hitem := List.length_pos_of_ne_nil hne
    have htext : text ≠ [] := by
      rintro rfl
      cases h.last
    have htext := List.length_pos_of_ne_nil htext
    rw [List.length_append]
    omega
  rw [← List.append_assoc] at hstart
  rw [← List.append_assoc, readClass?_item hf (startsItem_append_congr hlength more rest ▸ hstart),
    List.append_assoc, hread _ (.append h.last rest more), Option.bind_some]

/-- A class that has been read has a text. -/
theorem readClass?_text (hf : f.verbose = false)
    (h : f.readClass? n o outer cs = some (s, height, rest)) :
    ∃ text, cs = text ++ rest ∧ f.ClassText o outer s height text := by
  induction n generalizing o outer cs with
  | zero => cases h
  | succ n ih =>
    by_cases hstart : startsItem cs = true
    · rw [readClass?_item hf hstart] at h
      obtain ⟨⟨s', behind⟩, hitem, hclass⟩ := Option.bind_eq_some_iff.mp h
      obtain ⟨text, rfl, htext⟩ := ih hclass
      exact htext.item hf hstart hitem
    obtain rfl | ⟨cs, rfl⟩ | ⟨cs, rfl⟩ | ⟨c, op, cs, hop, rfl⟩ :=
      cases_of_startsItem (Bool.eq_false_iff.mpr hstart)
    · rw [readClass?_nil hf] at h
      cases h
    · rw [readClass?_open hf] at h
      split at h
      · rename_i hnamed
        obtain ⟨s', hs, hclass⟩ := Option.bind_eq_some_iff.mp h
        obtain ⟨text, rfl, htext⟩ := ih hclass
        exact htext.named hf hnamed hs
      · rename_i hnamed
        obtain ⟨⟨inner, behind⟩, hopen, hclass⟩ := Option.bind_eq_some_iff.mp h
        obtain ⟨text, rfl, htext⟩ := ih hclass
        exact htext.nested hf hnamed hopen
    · rw [readClass?_close hf] at h
      obtain ⟨s', hs, hclass⟩ := Option.bind_eq_some_iff.mp h
      split at hclass
      · cases hclass
        exact ⟨[']'], rfl, .closed hf hs⟩
      · obtain ⟨text, rfl, htext⟩ := ih hclass
        exact ⟨']' :: text, rfl, htext.close hf hs⟩
    · rw [readClass?_operator hf hop] at h
      obtain ⟨text, rfl, htext⟩ := ih h
      exact ⟨c :: c :: text, rfl, htext.operator hf hop⟩

end extent
end Flags
end Tinct.Regex
