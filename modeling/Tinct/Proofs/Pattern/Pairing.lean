import Tinct.Proofs.Pattern.Cutting

/-!
# Which parentheses belong together

A parenthesis that opens a group belongs to the first one behind it that closes more groups than
have been opened in between:

* `ClosesAt`, `Paired`: what belongs together, by the elements alone;
* `Paired.nested`: a pair that opens in another one closes in it;
* `mem_pairs_iff`: the reader of pairs finds just that;
* `closes?_of_pairs`: where it finds all pairs, each group closes.
-/

namespace Tinct

/-- The parenthesis at position `j` of some elements closes a group, `depth` groups being open in it
in front of them. -/
inductive ClosesAt : Nat → List Lexeme → Nat → Prop
  | here {l : Lexeme} {ls : List Lexeme} (hclose : l.kind = .close) : ClosesAt 0 (l :: ls) 0
  | opens {l : Lexeme} {ls : List Lexeme} {depth j : Nat} (hopens : l.kind.opensGroup = true) :
    ClosesAt (depth + 1) ls j → ClosesAt depth (l :: ls) (j + 1)
  | closes {l : Lexeme} {ls : List Lexeme} {depth j : Nat} (hclose : l.kind = .close) :
    ClosesAt depth ls j → ClosesAt (depth + 1) (l :: ls) (j + 1)
  | other {l : Lexeme} {ls : List Lexeme} {depth j : Nat} (hopens : l.kind.opensGroup = false)
    (hclose : l.kind ≠ .close) : ClosesAt depth ls j → ClosesAt depth (l :: ls) (j + 1)

/-- The parentheses at two positions of some elements belong together. -/
inductive Paired : List Lexeme → Nat → Nat → Prop
  | here {l : Lexeme} {ls : List Lexeme} {j : Nat} (hopens : l.kind.opensGroup = true) :
    ClosesAt 0 ls j → Paired (l :: ls) 0 (j + 1)
  | behind {l : Lexeme} {ls : List Lexeme} {i j : Nat} :
    Paired ls i j → Paired (l :: ls) (i + 1) (j + 1)

namespace ClosesAt
variable {l : Lexeme} {ls : List Lexeme} {depth j : Nat}

theorem cons_of_opens (h : l.kind.opensGroup = true) :
    ClosesAt depth (l :: ls) j ↔ ∃ i, j = i + 1 ∧ ClosesAt (depth + 1) ls i := by
  constructor
  · intro hcloses
    cases hcloses with
    | here hclose => rw [hclose] at h; cases h
    | opens _ hrest => exact ⟨_, rfl, hrest⟩
    | closes hclose => rw [hclose] at h; cases h
    | other hopens => rw [hopens] at h; cases h
  · rintro ⟨i, rfl, hrest⟩
    exact .opens h hrest

theorem cons_of_close (h : l.kind = .close) : ClosesAt depth (l :: ls) j ↔
    depth = 0 ∧ j = 0 ∨ ∃ d i, depth = d + 1 ∧ j = i + 1 ∧ ClosesAt d ls i := by
  constructor
  · intro hcloses
    cases hcloses with
    | here => exact .inl ⟨rfl, rfl⟩
    | opens hopens => rw [h] at hopens; cases hopens
    | closes _ hrest => exact .inr ⟨_, _, rfl, rfl, hrest⟩
    | other _ hclose => exact absurd h hclose
  · rintro (⟨rfl, rfl⟩ | ⟨d, i, rfl, rfl, hrest⟩)
    · exact .here h
    · exact .closes h hrest

theorem cons_of_other (hopens : l.kind.opensGroup = false) (hclose : l.kind ≠ .close) :
    ClosesAt depth (l :: ls) j ↔ ∃ i, j = i + 1 ∧ ClosesAt depth ls i := by
  constructor
  · intro hcloses
    cases hcloses with
    | here h => exact absurd h hclose
    | opens h => rw [hopens] at h; cases h
    | closes h => exact absurd h hclose
    | other _ _ hrest => exact ⟨_, rfl, hrest⟩
  · rintro ⟨i, rfl, hrest⟩
    exact .other hopens hclose hrest

theorem exists_close (h : ClosesAt depth ls j) : ∃ c, ls[j]? = some c ∧ c.kind = .close := by
  induction h with
  | here hclose => exact ⟨_, rfl, hclose⟩
  | opens _ _ ih => exact ih
  | closes _ _ ih => exact ih
  | other _ _ _ ih => exact ih

theorem exists_split (h : ClosesAt depth ls j) :
    ∃ inside c behind, ls = inside ++ c :: behind ∧ c.kind = .close ∧ inside.length = j := by
  have hcons {l : Lexeme} {ls : List Lexeme} {j : Nat}
      (h : ∃ inside c behind, ls = inside ++ c :: behind ∧ c.kind = .close ∧ inside.length = j) :
      ∃ inside c behind,
        l :: ls = inside ++ c :: behind ∧ c.kind = .close ∧ inside.length = j + 1 := by
    obtain ⟨inside, c, behind, rfl, hclose, rfl⟩ := h
    exact ⟨l :: inside, c, behind, rfl, hclose, rfl⟩
  induction h with
  | here hclose => exact ⟨[], _, _, rfl, hclose, rfl⟩
  | opens _ _ ih => exact hcons ih
  | closes _ _ ih => exact hcons ih
  | other _ _ _ ih => exact hcons ih

/-- Between a group's parentheses each group closes. -/
theorem length_iff {inside behind : List Lexeme} {c : Lexeme} (hc : c.kind = .close) :
    ClosesAt depth (inside ++ c :: behind) inside.length ↔ closes? depth inside = some 0 := by
  induction inside generalizing depth with
  | nil =>
    rw [List.nil_append, cons_of_close hc, closes?]
    simp
  | cons l inside ih =>
    rw [List.cons_append, List.length_cons]
    by_cases hopens : l.kind.opensGroup = true
    · rw [cons_of_opens hopens, closes?_cons_of_opens hopens]
      simp [ih]
    by_cases hclose : l.kind = .close
    · rw [cons_of_close hclose]
      cases depth with
      | zero => simp [closes?, hclose, LexemeKind.opensGroup_close]
      | succ depth => simp [closes?_cons_of_close hclose, ih]
    · have hopens := Bool.eq_false_iff.mpr hopens
      rw [cons_of_other hopens hclose, closes?_cons_of_other hopens hclose]
      simp [ih]

end ClosesAt

namespace Paired
variable {l : Lexeme} {ls : List Lexeme} {i j : Nat}

theorem cons_iff : Paired (l :: ls) i j ↔
    (l.kind.opensGroup = true ∧ i = 0 ∧ ∃ k, j = k + 1 ∧ ClosesAt 0 ls k) ∨
      ∃ i' j', i = i' + 1 ∧ j = j' + 1 ∧ Paired ls i' j' := by
  constructor
  · intro h
    cases h with
    | here hopens hcloses => exact .inl ⟨hopens, rfl, _, rfl, hcloses⟩
    | behind h => exact .inr ⟨_, _, rfl, rfl, h⟩
  · rintro (⟨hopens, rfl, k, rfl, hcloses⟩ | ⟨i', j', rfl, rfl, h⟩)
    · exact .here hopens hcloses
    · exact .behind h

theorem cons_of_not (h : l.kind.opensGroup = false) :
    Paired (l :: ls) i j ↔ ∃ i' j', i = i' + 1 ∧ j = j' + 1 ∧ Paired ls i' j' := by
  simp [cons_iff, h]

theorem exists_close (h : Paired ls i j) : ∃ c, ls[j]? = some c ∧ c.kind = .close := by
  induction h with
  | here _ hcloses => exact hcloses.exists_close
  | behind _ ih => exact ih

theorem exists_open (h : Paired ls i j) : ∃ o, ls[i]? = some o ∧ o.kind.opensGroup = true := by
  induction h with
  | here hopens => exact ⟨_, rfl, hopens⟩
  | behind _ ih => exact ih

theorem exists_split (h : Paired ls i j) :
    ∃ front o inside c behind, ls = front ++ o :: (inside ++ c :: behind) ∧ c.kind = .close ∧
      front.length = i ∧ front.length + 1 + inside.length = j := by
  induction h with
  | here _ hcloses =>
    obtain ⟨inside, c, behind, rfl, hclose, rfl⟩ := hcloses.exists_split
    exact ⟨[], _, inside, c, behind, rfl, hclose, rfl, by rw [List.length_nil]; omega⟩
  | @behind l _ _ _ _ ih =>
    obtain ⟨front, o, inside, c, behind, rfl, hclose, rfl, rfl⟩ := ih
    exact ⟨l :: front, o, inside, c, behind, rfl, hclose, rfl, by rw [List.length_cons]; omega⟩

/-- Two parentheses belong together if each group closes between them. -/
theorem length_iff {front inside behind : List Lexeme} {o c : Lexeme}
    (ho : o.kind.opensGroup = true) (hc : c.kind = .close) :
    Paired (front ++ o :: (inside ++ c :: behind)) front.length
      (front.length + 1 + inside.length) ↔ closes? 0 inside = some 0 := by
  induction front with
  | nil =>
    rw [← @ClosesAt.length_iff 0 inside behind c hc, List.nil_append, List.length_nil, cons_iff]
    constructor
    · rintro (⟨-, -, k, hk, h⟩ | ⟨i', -, hi, -⟩)
      · rwa [show inside.length = k by omega]
      · cases hi
    · exact fun h => .inl ⟨ho, rfl, _, by omega, h⟩
  | cons l front ih =>
    rw [← ih, List.cons_append, cons_iff]
    constructor
    · rintro (⟨-, hi, -⟩ | ⟨i', j', hi, hj, h⟩)
      · cases hi
      · obtain rfl : front.length = i' := Nat.succ.inj hi
        rwa [show front.length + 1 + inside.length = j' by rw [List.length_cons] at hj; omega]
    · exact fun h => .inr ⟨_, _, rfl, by rw [List.length_cons]; omega, h⟩

end Paired

/-! ## Pairs nest -/

namespace ClosesAt
variable {ls : List Lexeme} {depth d i j : Nat}

/-- The more groups are open, the earlier the first of them closes. -/
theorem lt_of_lt (h : ClosesAt depth ls j) (h' : ClosesAt d ls i) (hlt : d < depth) : i < j := by
  induction h generalizing d i with
  | here => exact absurd hlt (Nat.not_lt_zero d)
  | opens hopens _ ih =>
    obtain ⟨i, rfl, hrest⟩ := (cons_of_opens hopens).mp h'
    exact Nat.succ_lt_succ (ih hrest (Nat.succ_lt_succ hlt))
  | closes hclose _ ih =>
    obtain ⟨-, rfl⟩ | ⟨d, i, rfl, rfl, hrest⟩ := (cons_of_close hclose).mp h'
    · exact Nat.succ_pos _
    · exact Nat.succ_lt_succ (ih hrest (Nat.lt_of_succ_lt_succ hlt))
  | other hopens hclose _ ih =>
    obtain ⟨i, rfl, hrest⟩ := (cons_of_other hopens hclose).mp h'
    exact Nat.succ_lt_succ (ih hrest hlt)

theorem unique (h : ClosesAt depth ls j) (h' : ClosesAt depth ls i) : i = j := by
  induction h generalizing i with
  | here hclose =>
    obtain ⟨-, rfl⟩ | ⟨d, i, hd, -, -⟩ := (cons_of_close hclose).mp h'
    · rfl
    · cases hd
  | opens hopens _ ih =>
    obtain ⟨i, rfl, hrest⟩ := (cons_of_opens hopens).mp h'
    rw [ih hrest]
  | closes hclose _ ih =>
    obtain ⟨hd, -⟩ | ⟨d, i, hd, rfl, hrest⟩ := (cons_of_close hclose).mp h'
    · cases hd
    · obtain rfl := Nat.succ.inj hd
      rw [ih hrest]
  | other hopens hclose _ ih =>
    obtain ⟨i, rfl, hrest⟩ := (cons_of_other hopens hclose).mp h'
    rw [ih hrest]

/-- A pair that opens in a group closes in it. -/
theorem lt_of_paired (h : ClosesAt depth ls j) {a b : Nat} (hpaired : Paired ls a b) (ha : a < j) :
    b < j := by
  induction h generalizing a b with
  | here => exact absurd ha (Nat.not_lt_zero a)
  | opens hopens hcloses ih =>
    obtain ⟨-, rfl, b, rfl, hb⟩ | ⟨a, b, rfl, rfl, hrest⟩ := Paired.cons_iff.mp hpaired
    · exact Nat.succ_lt_succ (hcloses.lt_of_lt hb (Nat.succ_pos _))
    · exact Nat.succ_lt_succ (ih hrest (Nat.lt_of_succ_lt_succ ha))
  | closes hclose _ ih =>
    obtain ⟨a, b, rfl, rfl, hrest⟩ :=
      (Paired.cons_of_not (hclose ▸ LexemeKind.opensGroup_close)).mp hpaired
    exact Nat.succ_lt_succ (ih hrest (Nat.lt_of_succ_lt_succ ha))
  | other hopens _ _ ih =>
    obtain ⟨a, b, rfl, rfl, hrest⟩ := (Paired.cons_of_not hopens).mp hpaired
    exact Nat.succ_lt_succ (ih hrest (Nat.lt_of_succ_lt_succ ha))

end ClosesAt

namespace Paired
variable {ls : List Lexeme} {i j a b : Nat}

theorem lt (h : Paired ls i j) : i < j := by
  induction h with
  | here => exact Nat.succ_pos _
  | behind _ ih => exact Nat.succ_lt_succ ih

/-- A pair that opens in another one closes in it. -/
theorem nested (h : Paired ls i j) (h' : Paired ls a b) (hi : i < a) (hj : a < j) : b < j := by
  induction h generalizing a b with
  | here _ hcloses =>
    obtain ⟨-, rfl, -⟩ | ⟨a, b, rfl, rfl, hrest⟩ := cons_iff.mp h'
    · cases hi
    · exact Nat.succ_lt_succ (hcloses.lt_of_paired hrest (Nat.lt_of_succ_lt_succ hj))
  | behind _ ih =>
    obtain ⟨-, rfl, -⟩ | ⟨a, b, rfl, rfl, hrest⟩ := cons_iff.mp h'
    · cases hi
    · exact Nat.succ_lt_succ (ih hrest (Nat.lt_of_succ_lt_succ hi) (Nat.lt_of_succ_lt_succ hj))

theorem unique (h : Paired ls i j) (h' : Paired ls i b) : b = j := by
  induction h generalizing b with
  | here _ hcloses =>
    obtain ⟨-, -, b, rfl, hb⟩ | ⟨a, b, ha, -, -⟩ := cons_iff.mp h'
    · rw [hcloses.unique hb]
    · cases ha
  | behind _ ih =>
    obtain ⟨-, hi, -⟩ | ⟨a, b, ha, rfl, hrest⟩ := cons_iff.mp h'
    · cases hi
    · obtain rfl := Nat.succ.inj ha
      rw [ih hrest]

/-- Two pairs are the same, apart from each other, or one is in the other. -/
theorem cases_of (h : Paired ls i j) (h' : Paired ls a b) :
    a = i ∧ b = j ∨ j < a ∨ b < i ∨ i < a ∧ b < j ∨ a < i ∧ j < b := by
  have hne {i j a b : Nat} (h : Paired ls i j) (h' : Paired ls a b) : i ≠ b := by
    rintro rfl
    obtain ⟨o, ho, hopens⟩ := h.exists_open
    obtain ⟨c, hc, hclose⟩ := h'.exists_close
    obtain rfl := Option.some.inj (ho.symm.trans hc)
    rw [hclose] at hopens
    cases hopens
  have hlt := h.lt
  have hlt' := h'.lt
  obtain hi | rfl | hi := Nat.lt_trichotomy i a
  · obtain ha | rfl | ha := Nat.lt_trichotomy a j
    · exact .inr (.inr (.inr (.inl ⟨hi, h.nested h' hi ha⟩)))
    · exact absurd rfl (hne h' h)
    · exact .inr (.inl ha)
  · exact .inl ⟨rfl, h.unique h'⟩
  · obtain hb | rfl | hb := Nat.lt_trichotomy i b
    · exact .inr (.inr (.inr (.inr ⟨hi, h'.nested h hi hb⟩)))
    · exact absurd rfl (hne h h')
    · exact .inr (.inr (.inl hb))

end Paired

/-! ## The reader of pairs -/

/-- The parentheses at `a` and `b` belong together, the elements starting at position `i` and
`waiting` being the positions of groups that are open in front of them, innermost first. -/
def Partners (i : Nat) (waiting : List Nat) (ls : List Lexeme) (a b : Nat) : Prop :=
  (∃ depth j, waiting[depth]? = some a ∧ b = i + j ∧ ClosesAt depth ls j) ∨
    ∃ a' b', a = i + a' ∧ b = i + b' ∧ Paired ls a' b'

namespace Partners
variable {i a b : Nat} {waiting : List Nat} {l : Lexeme} {ls : List Lexeme}

theorem cons_of_opens (hopens : l.kind.opensGroup = true) :
    Partners i waiting (l :: ls) a b ↔ Partners (i + 1) (i :: waiting) ls a b := by
  simp only [Partners, ClosesAt.cons_of_opens hopens, Paired.cons_iff, hopens, true_and]
  constructor
  · rintro (⟨depth, j, hget, rfl, k, rfl, hcloses⟩ |
      ⟨a', b', rfl, rfl, ⟨rfl, k, rfl, hcloses⟩ | ⟨a'', b'', rfl, rfl, hpaired⟩⟩)
    · exact .inl ⟨depth + 1, k, hget, by omega, hcloses⟩
    · exact .inl ⟨0, k, rfl, by omega, hcloses⟩
    · exact .inr ⟨a'', b'', by omega, by omega, hpaired⟩
  · rintro (⟨depth, j, hget, rfl, hcloses⟩ | ⟨a', b', rfl, rfl, hpaired⟩)
    · cases depth with
      | zero =>
        obtain rfl := Option.some.inj hget
        exact .inr ⟨0, j + 1, rfl, by omega, .inl ⟨rfl, j, rfl, hcloses⟩⟩
      | succ depth => exact .inl ⟨depth, j + 1, hget, by omega, j, rfl, hcloses⟩
    · exact .inr ⟨a' + 1, b' + 1, by omega, by omega, .inr ⟨a', b', rfl, rfl, hpaired⟩⟩

theorem cons_of_close (hclose : l.kind = .close) {o : Nat} :
    Partners i (o :: waiting) (l :: ls) a b ↔
      a = o ∧ b = i ∨ Partners (i + 1) waiting ls a b := by
  simp only [Partners, ClosesAt.cons_of_close hclose,
    Paired.cons_of_not (hclose ▸ LexemeKind.opensGroup_close)]
  constructor
  · rintro (⟨depth, j, hget, rfl, ⟨rfl, rfl⟩ | ⟨d, k, rfl, rfl, hcloses⟩⟩ |
      ⟨a', b', rfl, rfl, a'', b'', rfl, rfl, hpaired⟩)
    · exact .inl ⟨(Option.some.inj hget).symm, rfl⟩
    · exact .inr (.inl ⟨d, k, hget, by omega, hcloses⟩)
    · exact .inr (.inr ⟨a'', b'', by omega, by omega, hpaired⟩)
  · rintro (⟨rfl, rfl⟩ | ⟨depth, j, hget, rfl, hcloses⟩ | ⟨a', b', rfl, rfl, hpaired⟩)
    · exact .inl ⟨0, 0, rfl, rfl, .inl ⟨rfl, rfl⟩⟩
    · exact .inl ⟨depth + 1, j + 1, hget, by omega, .inr ⟨depth, j, rfl, rfl, hcloses⟩⟩
    · exact .inr ⟨a' + 1, b' + 1, by omega, by omega, a', b', rfl, rfl, hpaired⟩

theorem cons_of_other (hopens : l.kind.opensGroup = false) (hclose : l.kind ≠ .close) :
    Partners i waiting (l :: ls) a b ↔ Partners (i + 1) waiting ls a b := by
  simp only [Partners, ClosesAt.cons_of_other hopens hclose, Paired.cons_of_not hopens]
  constructor
  · rintro (⟨depth, j, hget, rfl, k, rfl, hcloses⟩ |
      ⟨a', b', rfl, rfl, a'', b'', rfl, rfl, hpaired⟩)
    · exact .inl ⟨depth, k, hget, by omega, hcloses⟩
    · exact .inr ⟨a'', b'', by omega, by omega, hpaired⟩
  · rintro (⟨depth, j, hget, rfl, hcloses⟩ | ⟨a', b', rfl, rfl, hpaired⟩)
    · exact .inl ⟨depth, j + 1, hget, by omega, j, rfl, hcloses⟩
    · exact .inr ⟨a' + 1, b' + 1, by omega, by omega, a', b', rfl, rfl, hpaired⟩

end Partners

theorem mem_pairsFrom_iff {i : Nat} {waiting : List Nat} {ls : List Lexeme} {ps : List (Nat × Nat)}
    (h : pairsFrom i waiting ls = .ok ps) {a b : Nat} :
    (a, b) ∈ ps ↔ Partners i waiting ls a b := by
  induction ls generalizing i waiting ps with
  | nil =>
    cases waiting with
    | cons o waiting => cases h
    | nil =>
      cases h
      refine ⟨nofun, ?_⟩
      rintro (⟨depth, j, -, -, h⟩ | ⟨a', b', -, -, h⟩) <;> cases h
  | cons l ls ih =>
    rw [pairsFrom_cons] at h
    split at h
    · rename_i hopens
      rw [ih h, Partners.cons_of_opens hopens]
    · rename_i hopens
      split at h
      · rename_i hclose
        cases waiting with
        | nil => cases h
        | cons o waiting =>
          obtain ⟨rest, hrest, h⟩ := bind_eq_ok.mp h
          cases h
          rw [List.mem_cons, ih hrest, Partners.cons_of_close hclose, Prod.mk.injEq]
      · rename_i hclose
        rw [ih h, Partners.cons_of_other (Bool.eq_false_iff.mpr hopens) hclose]

/-- The reader of pairs finds which parentheses belong together. -/
theorem mem_pairs_iff {ls : List Lexeme} {ps : List (Nat × Nat)} (h : pairs ls = .ok ps)
    {i j : Nat} : (i, j) ∈ ps ↔ Paired ls i j := by
  rw [mem_pairsFrom_iff h]
  simp [Partners]

theorem closes?_of_pairsFrom {i : Nat} {waiting : List Nat} {ls : List Lexeme}
    {ps : List (Nat × Nat)} (h : pairsFrom i waiting ls = .ok ps) :
    closes? waiting.length ls = some 0 := by
  induction ls generalizing i waiting ps with
  | nil =>
    cases waiting with
    | nil => rfl
    | cons o waiting => cases h
  | cons l ls ih =>
    rw [pairsFrom_cons] at h
    split at h
    · rename_i hopens
      rw [closes?_cons_of_opens hopens]
      exact ih h
    · rename_i hopens
      split at h
      · rename_i hclose
        cases waiting with
        | nil => cases h
        | cons o waiting =>
          obtain ⟨rest, hrest, -⟩ := bind_eq_ok.mp h
          rw [List.length_cons, closes?_cons_of_close hclose]
          exact ih hrest
      · rename_i hclose
        rw [closes?_cons_of_other (Bool.eq_false_iff.mpr hopens) hclose]
        exact ih h

/-- Where all parentheses stand in pairs, each group closes. -/
theorem closes?_of_pairs {ls : List Lexeme} {ps : List (Nat × Nat)} (h : pairs ls = .ok ps) :
    closes? 0 ls = some 0 :=
  closes?_of_pairsFrom h

end Tinct
