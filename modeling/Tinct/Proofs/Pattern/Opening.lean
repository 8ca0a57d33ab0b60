import Tinct.Proofs.Pattern.Shape

/-!
# What a parenthesis opens where its source ends elsewhere

A parenthesis is read together with what stands behind it:

* `LexemeKind.group?_takeWhile`: up to the next group or brace;
* `LexemeKind.group?_close`: a closing parenthesis behind the source completes flags, and changes
  nothing else;
* `LexemeKind.group?_of_append`: what is nothing but open is so where the source ends earlier, but
  not in front of its own end.
-/

namespace Tinct
namespace LexemeKind

/-! ## Up to the next group or brace -/

/-- Whether a character may belong to the opening of a group. -/
def isOpening (c : Char) : Bool := c != '\x7b' && c != '('

theorem isOpening_of_isFlag {c : Char} (h : isFlag c = true) : isOpening c = true := by
  rw [isOpening, Bool.and_eq_true, bne_iff_ne, bne_iff_ne]
  constructor <;> rintro rfl <;> cases h

theorem isOpening_of_isNamePart {c : Char} (h : isNamePart c = true) : isOpening c = true := by
  rw [isOpening, Bool.and_eq_true, bne_iff_ne, bne_iff_ne]
  constructor <;> rintro rfl <;> cases h

theorem head?_takeWhile_isOpening {c : Char} (h : isOpening c = true) (cs : List Char) :
    (cs.takeWhile isOpening).head? = some c ↔ cs.head? = some c := by
  rw [List.head?_takeWhile, Option.filter_eq_some_iff]
  exact and_iff_left h

theorem takeWhile_isOpening_append {as : List Char} (h : ∀ a ∈ as, isOpening a = true)
    (bs : List Char) : (as ++ bs).takeWhile isOpening = as ++ bs.takeWhile isOpening :=
  List.takeWhile_append_of_pos h

theorem namedGroup?_takeWhile (skip : Nat) (cs : List Char) :
    namedGroup? skip (cs.takeWhile isOpening) = namedGroup? skip cs := by
  by_cases hzero : nameLength cs = 0
  · have hzero' : nameLength (cs.takeWhile isOpening) = 0 := by
      cases cs with
      | nil => rfl
      | cons c cs =>
        rw [List.takeWhile_cons]
        split
        · exact nameLength_eq_zero_iff.mpr (nameLength_eq_zero_iff.mp hzero)
        · rfl
    rw [namedGroup?_of_nameLength hzero, namedGroup?_of_nameLength hzero']
  · obtain ⟨name, rest, rfl, hlength, hname, hrest⟩ := exists_name hzero
    have hall : ∀ c ∈ name, isOpening c = true := fun c hc =>
      isOpening_of_isNamePart (isNamePart_of_mem hname hc)
    have hrest' : ∀ c, (rest.takeWhile isOpening).head? = some c → isNamePart c = false := by
      intro c hc
      rw [List.head?_takeWhile, Option.filter_eq_some_iff] at hc
      exact hrest c hc.1
    have hangle := @head?_takeWhile_isOpening '>' rfl rest
    rw [takeWhile_isOpening_append hall, namedGroup?_append hname hrest,
      namedGroup?_append hname hrest']
    simp only [hangle]

theorem flagGroup?_takeWhile (cs : List Char) :
    flagGroup? (cs.takeWhile isOpening) = flagGroup? cs := by
  obtain ⟨letters, rest, rfl, hletters, hrest⟩ := Regex.Flags.exists_span isFlag cs
  have hrest' : ∀ c ∈ (rest.takeWhile isOpening).head?, isFlag c = false := by
    intro c hc
    rw [List.head?_takeWhile, Option.mem_def, Option.filter_eq_some_iff] at hc
    exact hrest c hc.1
  rw [takeWhile_isOpening_append fun c hc => isOpening_of_isFlag (hletters c hc),
    flagGroup?_append hletters hrest, flagGroup?_append hletters hrest']
  have hcolon := @head?_takeWhile_isOpening ':' rfl rest
  have hclose := @head?_takeWhile_isOpening ')' rfl rest
  simp only [hcolon, hclose]

/-- What a parenthesis opens is told by what stands in front of the next group or brace. -/
theorem group?_takeWhile (cs : List Char) : group? (cs.takeWhile isOpening) = group? cs := by
  have hfront (cs : List Char) : cs.takeWhile isOpening <+: cs := List.takeWhile_prefix _
  generalize hfound : group? cs = found
  rw [group?_eq_iff] at hfound ⊢
  cases hfound with
  | bare h => exact .bare (h.of_front (hfront _))
  | @look kind mark hmark cs =>
    have hall : ('?' :: mark).all isOpening = true := by
      cases hmark with
      | ahead | notAhead => rfl
      | behind hc => obtain rfl | rfl := hc <;> rfl
    rw [takeWhile_isOpening_append (List.all_eq_true.mp hall)]
    exact .look hmark _
  | @named mark cs _ hmark hlook h =>
    have hall : ('?' :: mark).all isOpening = true := by
      obtain rfl | rfl := hmark <;> rfl
    rw [takeWhile_isOpening_append (List.all_eq_true.mp hall), List.takeWhile_cons_of_pos rfl]
    exact .named hmark (fun hnil => (hlook hnil).of_front (hfront _))
      ((namedGroup?_takeWhile _ _).trans h)
  | flags hmarks h =>
    rw [List.takeWhile_cons_of_pos rfl]
    exact .flags (hmarks.of_front (hfront _)) ((flagGroup?_takeWhile _).trans h)

/-! ## Up to a closing parenthesis -/

/-- A closing parenthesis behind a source leaves what its first group opens with, or completes its
flags. -/
theorem group?_close {cs : List Char} {n : Nat} (h : group? cs = some (.open, n))
    (more : List Char) : group? (cs ++ ')' :: more) = some (.open, n) ∨
      ∃ letters, cs = '?' :: letters ∧ (∀ c ∈ letters, isFlag c = true) ∧ letters ≠ [] := by
  cases group?_eq_iff.mp h with
  | bare havoids => exact .inl (group?_eq_iff.mpr (.bare (havoids.append (by decide) more)))
  | look hmark => cases hmark
  | @named mark cs _ hmark hlook hgroup =>
    obtain ⟨hzero, rfl⟩ := nameLength_eq_zero_of_namedGroup? hgroup
    have hzero' : nameLength (cs ++ ')' :: more) = 0 := by
      cases cs with
      | nil => rfl
      | cons c cs => exact nameLength_eq_zero_iff.mpr (nameLength_eq_zero_iff.mp hzero)
    rw [List.append_assoc]
    exact .inl (group?_eq_iff.mpr (.named hmark (fun hnil => (hlook hnil).append (by decide) more)
      (namedGroup?_of_nameLength hzero' _)))
  | @flags cs _ hmarks hgroup =>
    obtain ⟨letters, rest, rfl, hletters, hrest⟩ := Regex.Flags.exists_span isFlag cs
    by_cases hends : rest = [] ∧ letters ≠ []
    · exact .inr ⟨letters, by rw [hends.1, List.append_nil], hletters, hends.2⟩
    have hrest' : ∀ c ∈ (rest ++ ')' :: more).head?, isFlag c = false := by
      cases rest with
      | nil => exact fun c hc => by cases hc; rfl
      | cons r rest => exact hrest
    have hgroup' : flagGroup? (letters ++ rest ++ ')' :: more) = some (.open, n) := by
      rw [List.append_assoc, flagGroup?_append hletters hrest', ← hgroup,
        flagGroup?_append hletters hrest]
      cases rest with
      | nil =>
        have hletters : letters = [] := not_not.mp fun hne => hends ⟨rfl, hne⟩
        simp [hletters]
      | cons r rest => rfl
    exact .inl (group?_eq_iff.mpr (.flags (hmarks.append (by decide) more) hgroup'))

/-! ## Up to an earlier end -/

/-- Flags that neither a colon nor a parenthesis follows. -/
theorem flagGroup?_of_append {cs ds : List Char} {n : Nat}
    (h : flagGroup? (cs ++ ds) = some (.open, n)) (hn : n ≤ cs.length + 2) :
    flagGroup? cs = some (.open, n) := by
  obtain ⟨letters, rest, rfl, hletters, hrest⟩ := Regex.Flags.exists_span isFlag cs
  cases rest with
  | cons r rest =>
    have hrest' : ∀ c ∈ (r :: rest ++ ds).head?, isFlag c = false := hrest
    rw [List.append_assoc, flagGroup?_append hletters hrest'] at h
    rw [flagGroup?_append hletters hrest]
    exact h
  | nil =>
    -- the letters may go on behind
    obtain ⟨more, rest, rfl, hmore, hrest'⟩ := Regex.Flags.exists_span isFlag ds
    rw [List.append_nil, ← List.append_assoc,
      flagGroup?_append (List.forall_mem_append.mpr ⟨hletters, hmore⟩) hrest'] at h
    rw [List.append_nil] at hn
    rw [flagGroup?_append hletters hrest]
    split at h
    · cases h
    split at h
    · rename_i hnil
      cases h
      simp [(List.append_eq_nil_iff.mp hnil).1]
    split at h
    · cases h
    split at h
    · rename_i hP
      cases h
      obtain ⟨rfl, -⟩ | ⟨rfl, -⟩ := List.append_eq_singleton_iff.mp hP <;> simp
    · rename_i hne _ hP
      cases h
      rw [List.length_append] at hn
      obtain rfl : more = [] := List.length_eq_zero_iff.mp (by omega)
      rw [List.append_nil] at hne hP
      simp [hne, hP]

/-- What opens a group does so where its source ends earlier, but not in front of its own end. -/
theorem group?_of_append {cs ds : List Char} {n : Nat} (h : group? (cs ++ ds) = some (.open, n))
    (hn : n ≤ cs.length + 1) : group? cs = some (.open, n) := by
  have hpos := (group?_length h).1
  rw [group?_eq_iff] at h
  generalize hsource : cs ++ ds = es at h
  cases h with
  | bare havoids =>
    exact group?_eq_iff.mpr (.bare (havoids.of_front (hsource ▸ List.prefix_append cs ds)))
  | look hmark => cases hmark
  | @named mark es _ hmark hlook hgroup =>
    obtain ⟨hzero, rfl⟩ := nameLength_eq_zero_of_namedGroup? hgroup
    -- the source may end within the mark
    have hwithin {front back : List Char} (hfront : front ++ back = '?' :: mark) :
        group? front = some (.open, 1) := by
      cases front with
      | nil => rfl
      | cons c front =>
        obtain ⟨rfl, hback⟩ := List.cons.inj hfront
        obtain rfl | rfl := hmark
        · obtain ⟨rfl, -⟩ := List.append_eq_nil_iff.mp hback
          rfl
        · obtain ⟨rfl, -⟩ | ⟨rfl, -⟩ := List.append_eq_singleton_iff.mp hback <;> rfl
    obtain ⟨as, hfront, -⟩ | ⟨as, rfl, hbehind⟩ := List.append_eq_append_iff.mp hsource
    · exact hwithin hfront.symm
    cases as with
    | nil =>
      rw [List.append_nil]
      exact hwithin (List.append_nil _)
    | cons a as =>
      obtain ⟨rfl, rfl⟩ := List.cons.inj hbehind
      exact group?_eq_iff.mpr (.named hmark
        (fun hnil => (hlook hnil).of_front (List.prefix_append _ _))
        (namedGroup?_of_nameLength (nameLength_of_append hzero) _))
  | flags hmarks hgroup =>
    cases cs with
    | nil =>
      obtain rfl : n = 1 := Nat.le_antisymm hn hpos
      rfl
    | cons c cs =>
      obtain ⟨rfl, rfl⟩ := List.cons.inj hsource
      exact group?_eq_iff.mpr (.flags (hmarks.of_front (List.prefix_append _ _))
        (flagGroup?_of_append hgroup hn))

end LexemeKind
end Tinct
