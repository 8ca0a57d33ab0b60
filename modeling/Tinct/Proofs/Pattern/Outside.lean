import Tinct.Pattern.Assembly
import Tinct.Proofs.Pattern.Pairing

/-!
# What stands outside of every group

An operand becomes a group because of what stands in it outside of its groups. The reader finds that
by counting how many groups are open:

* `hasOutside_append`, `hasOutside_inside`: what it finds in a part of a source and in a group;
* `hasOutside_iff`: it finds the elements in front of which no group is open;
* `Paired.exists_depth`: how many groups are open between two parentheses that belong together;
* `hasOutside_eq_false_iff`: it finds nothing that stands between such parentheses;
* `Paired.mem_part_iff`: they do not reach across the ends of a part in which each group closes;
* `Cuts.needsGrouping_eq_false_iff`, `Cuts.leaksFlags_eq_false_iff`: which operands stay without a
  group.
-/

namespace Tinct

/-! ## What the reader finds -/

section depth
variable {ls : List Lexeme} {kind : LexemeKind} {depth d i j : Nat}

theorem hasOutside_append (h : closes? depth ls = some d) (ks : List Lexeme) :
    hasOutside kind depth (ls ++ ks) = (hasOutside kind depth ls || hasOutside kind d ks) := by
  induction ls generalizing depth with
  | nil =>
    cases h
    rfl
  | cons l ls ih =>
    rw [List.cons_append]
    obtain ⟨hl, hrest⟩ | ⟨hl, e, rfl, hrest⟩ | ⟨hl, hl', hrest⟩ := closes?_cons_cases h
    · simp [hasOutside, hl, ih hrest]
    · simp [hasOutside, hl, LexemeKind.opensGroup, ih hrest]
    · simp [hasOutside, hl, hl', ih hrest, Bool.or_assoc]

/-- In a group that stays open nothing stands outside. -/
theorem hasOutside_inside (h : closes? depth ls = some d) :
    hasOutside kind (depth + 1) ls = false := by
  induction ls generalizing depth with
  | nil => rfl
  | cons l ls ih =>
    obtain ⟨hl, hrest⟩ | ⟨hl, e, rfl, hrest⟩ | ⟨hl, hl', hrest⟩ := closes?_cons_cases h
    · simp [hasOutside, hl, ih hrest]
    · simp [hasOutside, hl, LexemeKind.opensGroup, ih hrest]
    · simp [hasOutside, hl, hl', ih hrest]

theorem hasOutside_pieces (hkind : kind ≠ .literal) (depth : Nat) (ls : List Lexeme) :
    hasOutside kind depth (pieces ls) = hasOutside kind depth ls := by
  have hliterals (depth : Nat) (cs : List Char) :
      hasOutside kind depth (cs.map (⟨.literal, [·]⟩)) = false := by
    induction cs with
    | nil => rfl
    | cons c cs ih => simpa [hasOutside, LexemeKind.opensGroup, hkind.symm] using ih
  induction ls generalizing depth with
  | nil => rfl
  | cons l ls ih =>
    by_cases hl : l.kind = .literal
    · have hcloses : closes? depth (l.text.map (⟨.literal, [·]⟩)) = some depth := by
        have hliterals := closes?_literals depth l.text []
        rwa [List.append_nil] at hliterals
      rw [pieces_cons_of_eq hl, hasOutside_append hcloses, hliterals, ih, hasOutside, hl]
      simp [LexemeKind.opensGroup, hkind.symm]
    · rw [pieces_cons_of_ne hl, hasOutside, hasOutside]
      simp only [ih]

/-- Where no group is closed that is not open, the reader finds what stands where none is open. -/
theorem hasOutside_iff (hopens : kind.opensGroup = false) (hclose : kind ≠ .close)
    (h : closes? depth ls = some d) : hasOutside kind depth ls = true ↔
      ∃ k l, ls[k]? = some l ∧ l.kind = kind ∧ closes? depth (ls.take k) = some 0 := by
  induction ls generalizing depth with
  | nil => simp [hasOutside]
  | cons l ls ih =>
    have hcons : (∃ k o, (l :: ls)[k]? = some o ∧ o.kind = kind ∧
        closes? depth ((l :: ls).take k) = some 0) ↔ (l.kind = kind ∧ depth = 0) ∨
          ∃ k o, ls[k]? = some o ∧ o.kind = kind ∧ closes? depth (l :: ls.take k) = some 0 := by
      constructor
      · rintro ⟨k, o, ho, hkind, hfront⟩
        cases k with
        | zero =>
          obtain rfl := Option.some.inj ho
          exact .inl ⟨hkind, Option.some.inj hfront⟩
        | succ k => exact .inr ⟨k, o, ho, hkind, hfront⟩
      · rintro (⟨hkind, rfl⟩ | ⟨k, o, ho, hkind, hfront⟩)
        · exact ⟨0, l, rfl, hkind, rfl⟩
        · exact ⟨k + 1, o, ho, hkind, hfront⟩
    rw [hcons, hasOutside]
    obtain ⟨hl, hrest⟩ | ⟨hl, e, rfl, hrest⟩ | ⟨hl, hl', hrest⟩ := closes?_cons_cases h
    · have hkind : l.kind ≠ kind := fun heq => by rw [heq, hopens] at hl; cases hl
      simp [closes?_cons_of_opens hl, hl, hkind, ih hrest]
    · simp [closes?_cons_of_close hl, hl, hclose.symm, LexemeKind.opensGroup, ih hrest]
    · simp [closes?_cons_of_other hl hl', hl, hl', ih hrest]

/-! ### Between two parentheses -/

/-- A group that is open in front of elements that leave none open closes among them. -/
theorem ClosesAt.exists_of_lt (h : closes? depth ls = some 0) (hd : d < depth) :
    ∃ j, ClosesAt d ls j := by
  induction ls generalizing depth d with
  | nil =>
    cases h
    exact absurd hd (Nat.not_lt_zero d)
  | cons l ls ih =>
    obtain ⟨hl, hrest⟩ | ⟨hl, e, rfl, hrest⟩ | ⟨hl, hl', hrest⟩ := closes?_cons_cases h
    · obtain ⟨j, hj⟩ := ih hrest (Nat.succ_lt_succ hd)
      exact ⟨j + 1, .opens hl hj⟩
    · cases d with
      | zero => exact ⟨0, .here hl⟩
      | succ d =>
        obtain ⟨j, hj⟩ := ih hrest (Nat.lt_of_succ_lt_succ hd)
        exact ⟨j + 1, .closes hl hj⟩
    · obtain ⟨j, hj⟩ := ih hrest hd
      exact ⟨j + 1, .other hl hl' hj⟩

/-- Where a group is open, it is one of the elements in front that has opened it, or it was open in
front of all of them. -/
theorem exists_around (h : closes? depth ls = some 0) (k : Nat) :
    closes? depth (ls.take k) = some 0 ∨ (∃ i j, Paired ls i j ∧ i < k ∧ k ≤ j) ∨
      ∃ d j, d < depth ∧ ClosesAt d ls j ∧ k ≤ j := by
  induction ls generalizing depth k with
  | nil =>
    rw [List.take_nil]
    exact .inl h
  | cons l ls ih =>
    cases k with
    | zero =>
      cases depth with
      | zero => exact .inl rfl
      | succ depth =>
        obtain ⟨j, hj⟩ := ClosesAt.exists_of_lt h (Nat.succ_pos depth)
        exact .inr (.inr ⟨0, j, Nat.succ_pos depth, hj, Nat.zero_le j⟩)
    | succ k =>
      rw [List.take_succ_cons]
      obtain ⟨hl, hrest⟩ | ⟨hl, e, rfl, hrest⟩ | ⟨hl, hl', hrest⟩ := closes?_cons_cases h
      · rw [closes?_cons_of_opens hl]
        obtain hk | ⟨i, j, hpaired, hi, hj⟩ | ⟨d, j, hd, hcloses, hj⟩ := ih hrest k
        · exact .inl hk
        · exact .inr (.inl ⟨i + 1, j + 1, .behind hpaired, by omega, by omega⟩)
        · cases d with
          | zero => exact .inr (.inl ⟨0, j + 1, .here hl hcloses, by omega, by omega⟩)
          | succ d => exact .inr (.inr ⟨d, j + 1, by omega, .opens hl hcloses, by omega⟩)
      · rw [closes?_cons_of_close hl]
        obtain hk | ⟨i, j, hpaired, hi, hj⟩ | ⟨d, j, hd, hcloses, hj⟩ := ih hrest k
        · exact .inl hk
        · exact .inr (.inl ⟨i + 1, j + 1, .behind hpaired, by omega, by omega⟩)
        · exact .inr (.inr ⟨d + 1, j + 1, by omega, .closes hl hcloses, by omega⟩)
      · rw [closes?_cons_of_other hl hl']
        obtain hk | ⟨i, j, hpaired, hi, hj⟩ | ⟨d, j, hd, hcloses, hj⟩ := ih hrest k
        · exact .inl hk
        · exact .inr (.inl ⟨i + 1, j + 1, .behind hpaired, by omega, by omega⟩)
        · exact .inr (.inr ⟨d, j + 1, hd, .other hl hl' hcloses, by omega⟩)

/-- A group stays open up to the parenthesis that closes it. -/
theorem ClosesAt.exists_depth (h : ClosesAt depth ls j) (c : Nat) :
    closes? (c + depth + 1) (ls.take (j + 1)) = some c ∧
      ∀ k ≤ j, ∃ n, closes? (c + depth + 1) (ls.take k) = some (c + 1 + n) := by
  have hzero (depth : Nat) (ls : List Lexeme) :
      ∃ n, closes? (c + depth + 1) (ls.take 0) = some (c + 1 + n) :=
    ⟨depth, congrArg some (by omega)⟩
  induction h with
  | @here l ls hclose =>
    refine ⟨closes?_cons_of_close hclose c [], fun k hk => ?_⟩
    obtain rfl := Nat.le_zero.mp hk
    exact hzero 0 _
  | @opens l ls depth j hopens _ ih =>
    have hcons (n : Nat) := closes?_cons_of_opens hopens (c + depth + 1) (ls.take n)
    refine ⟨(hcons (j + 1)).trans ih.1, fun k hk => ?_⟩
    cases k with
    | zero => exact hzero depth _
    | succ k => exact List.take_succ_cons ▸ hcons k ▸ ih.2 k (Nat.le_of_succ_le_succ hk)
  | @closes l ls depth j hclose _ ih =>
    have hcons (n : Nat) := closes?_cons_of_close hclose (c + depth + 1) (ls.take n)
    refine ⟨(hcons (j + 1)).trans ih.1, fun k hk => ?_⟩
    cases k with
    | zero => exact hzero (depth + 1) _
    | succ k => exact List.take_succ_cons ▸ hcons k ▸ ih.2 k (Nat.le_of_succ_le_succ hk)
  | @other l ls depth j hopens hclose _ ih =>
    have hcons (n : Nat) := closes?_cons_of_other hopens hclose (c + depth + 1) (ls.take n)
    refine ⟨(hcons (j + 1)).trans ih.1, fun k hk => ?_⟩
    cases k with
    | zero => exact hzero depth _
    | succ k => exact List.take_succ_cons ▸ hcons k ▸ ih.2 k (Nat.le_of_succ_le_succ hk)

/-- Between two parentheses that belong together more groups are open than around them. -/
theorem Paired.exists_depth (h : Paired ls i j) (hd : closes? depth ls = some d) :
    ∃ e, closes? depth (ls.take i) = some e ∧ closes? depth (ls.take (j + 1)) = some e ∧
      ∀ k, i < k → k ≤ j → ∃ n, closes? depth (ls.take k) = some (e + 1 + n) := by
  induction h generalizing depth with
  | @here l ls j hopens hcloses =>
    obtain ⟨hend, hinside⟩ := hcloses.exists_depth depth
    have hcons (n : Nat) := closes?_cons_of_opens hopens depth (ls.take n)
    refine ⟨depth, rfl, (hcons (j + 1)).trans hend, fun k hi hj => ?_⟩
    obtain ⟨k, rfl⟩ := Nat.exists_eq_add_of_lt hi
    rw [Nat.zero_add, List.take_succ_cons, hcons]
    exact hinside k (by omega)
  | @behind l ls i j _ ih =>
    rw [← List.singleton_append, closes?_append] at hd
    obtain ⟨inner, hl, hd⟩ := Option.bind_eq_some_iff.mp hd
    have hcons (n : Nat) : closes? depth ((l :: ls).take (n + 1)) = closes? inner (ls.take n) := by
      rw [List.take_succ_cons, ← List.singleton_append, closes?_append, hl]
      rfl
    obtain ⟨e, hi, hj, hinside⟩ := ih hd
    refine ⟨e, (hcons i).trans hi, (hcons (j + 1)).trans hj, fun k hlt hle => ?_⟩
    cases k with
    | zero => exact absurd hlt (Nat.not_lt_zero _)
    | succ k =>
      rw [hcons]
      exact hinside k (Nat.lt_of_succ_lt_succ hlt) (Nat.le_of_succ_le_succ hle)

/-- Where each group closes, the reader finds nothing but what stands between no two parentheses
that belong together. -/
theorem hasOutside_eq_false_iff (hopens : kind.opensGroup = false) (hclose : kind ≠ .close)
    (h : closes? 0 ls = some 0) : hasOutside kind 0 ls = false ↔
      ∀ k l, ls[k]? = some l → l.kind = kind → ∃ i j, Paired ls i j ∧ i < k ∧ k < j := by
  rw [Bool.eq_false_iff, ne_eq, hasOutside_iff hopens hclose h]
  constructor
  · intro hnone k l hl hkind
    obtain hfront | ⟨i, j, hpaired, hi, hj⟩ | ⟨d, -, hd, -⟩ := exists_around h k
    · exact absurd ⟨k, l, hl, hkind, hfront⟩ hnone
    · refine ⟨i, j, hpaired, hi, Nat.lt_of_le_of_ne hj ?_⟩
      rintro rfl
      obtain ⟨c, hc, hkind'⟩ := hpaired.exists_close
      obtain rfl := Option.some.inj (hl.symm.trans hc)
      exact hclose (hkind.symm.trans hkind')
    · exact absurd hd (Nat.not_lt_zero d)
  · rintro hinside ⟨k, l, hl, hkind, hfront⟩
    obtain ⟨i, j, hpaired, hi, hj⟩ := hinside k l hl hkind
    obtain ⟨e, -, -, hdepth⟩ := hpaired.exists_depth h
    obtain ⟨n, hn⟩ := hdepth k hi (Nat.le_of_lt hj)
    have hzero := Option.some.inj (hn.symm.trans hfront)
    omega

end depth

/-! ### Parts in which each group closes -/

section part
variable {front ls behind : List Lexeme} {d i j : Nat}

theorem ClosesAt.append {depth : Nat} (h : ClosesAt depth ls j) (behind : List Lexeme) :
    ClosesAt depth (ls ++ behind) j := by
  induction h with
  | here hclose => exact .here hclose
  | opens hopens _ ih => exact .opens hopens ih
  | closes hclose _ ih => exact .closes hclose ih
  | other hopens hclose _ ih => exact .other hopens hclose ih

/-- What belongs together in a part of a source does so in the source. -/
theorem Paired.of_part (h : Paired ls i j) (front behind : List Lexeme) :
    Paired (front ++ (ls ++ behind)) (front.length + i) (front.length + j) := by
  induction front with
  | nil =>
    rw [List.nil_append, List.length_nil, Nat.zero_add, Nat.zero_add]
    induction h with
    | here hopens hcloses => exact .here hopens (hcloses.append behind)
    | behind _ ih => exact .behind ih
  | cons l front ih =>
    rw [List.length_cons, Nat.add_right_comm, Nat.add_right_comm _ 1]
    exact .behind ih

/-- In a part in which each group closes at least as many groups are open as in front of it. -/
theorem exists_depth_of_part (h : closes? 0 (front ++ (ls ++ behind)) = some d)
    (hcloses : closes? 0 ls = some 0) :
    ∃ e, closes? 0 ((front ++ (ls ++ behind)).take (front.length + ls.length)) = some e ∧
      closes? 0 ((front ++ (ls ++ behind)).take front.length) = some e ∧
      ∀ n ≤ ls.length, ∃ m, closes? 0 ((front ++ (ls ++ behind)).take (front.length + n)) =
        some (e + m) := by
  rw [closes?_append] at h
  obtain ⟨e, he, -⟩ := Option.bind_eq_some_iff.mp h
  have hpart {n m : Nat} (hn : n ≤ ls.length) (hm : closes? 0 (ls.take n) = some m) :
      closes? 0 ((front ++ (ls ++ behind)).take (front.length + n)) = some (e + m) := by
    have hadd := closes?_add hm e
    rw [List.take_length_add_append, List.take_append_of_le_length hn, closes?_append, he,
      Option.bind_some, Nat.add_comm e m]
    rwa [Nat.zero_add] at hadd
  refine ⟨e, @hpart _ 0 (Nat.le_refl _) (by rwa [List.take_length]), @hpart 0 0 (Nat.zero_le _) rfl,
    fun n hn => ?_⟩
  rw [← List.take_append_drop n ls, closes?_append] at hcloses
  obtain ⟨m, hm, -⟩ := Option.bind_eq_some_iff.mp hcloses
  exact ⟨m, hpart hn hm⟩

/-- Of two parentheses that belong together, both stand in such a part or none does. -/
theorem Paired.mem_part_iff (h : Paired (front ++ (ls ++ behind)) i j)
    (hall : closes? 0 (front ++ (ls ++ behind)) = some d) (hcloses : closes? 0 ls = some 0) :
    front.length ≤ i ∧ i < front.length + ls.length ↔
      front.length ≤ j ∧ j < front.length + ls.length := by
  have hlt := h.lt
  obtain ⟨e, hstop, hstart, hpart⟩ := exists_depth_of_part hall hcloses
  obtain ⟨c, hi, hj, hbetween⟩ := h.exists_depth hall
  have hdepth {a b k : Nat} (ha : closes? 0 ((front ++ (ls ++ behind)).take k) = some a)
      (hb : closes? 0 ((front ++ (ls ++ behind)).take k) = some b) : a = b :=
    Option.some.inj (ha.symm.trans hb)
  constructor
  · rintro ⟨hle, hi'⟩
    refine ⟨by omega, Nat.lt_of_not_le fun hj' => ?_⟩
    obtain ⟨n, rfl⟩ := Nat.exists_eq_add_of_le hle
    obtain ⟨m, hm⟩ := hpart n (by omega)
    obtain ⟨m', hm'⟩ := hbetween _ hi' hj'
    have hinside := hdepth hi hm
    have hbehind := hdepth hstop hm'
    omega
  · rintro ⟨hle, hj'⟩
    refine ⟨Nat.le_of_not_lt fun hi' => ?_, by omega⟩
    obtain ⟨n, rfl⟩ := Nat.exists_eq_add_of_le hle
    obtain ⟨m, hm⟩ := hpart (n + 1) (by omega)
    obtain ⟨m', hm'⟩ := hbetween _ hi' hle
    have hinside := hdepth hj hm
    have hfront := hdepth hstart hm'
    omega

end part

/-! ## Operands -/

namespace Cuts
variable {source : String} {ls : List Lexeme}

theorem needsGrouping_eq (h : Cuts source.toList ls) :
    needsGrouping source = .ok (hasOutside .alternate 0 ls || hasOutside .flags 0 ls) := by
  obtain ⟨ls', hlex, rfl⟩ := lex_of_cuts h
  rw [hasOutside_pieces LexemeKind.noConfusion, hasOutside_pieces LexemeKind.noConfusion]
  exact bind_eq_ok.mpr ⟨ls', hlex, rfl⟩

theorem leaksFlags_eq (h : Cuts source.toList ls) :
    leaksFlags source = .ok (hasOutside .flags 0 ls) := by
  obtain ⟨ls', hlex, rfl⟩ := lex_of_cuts h
  rw [hasOutside_pieces LexemeKind.noConfusion]
  exact bind_eq_ok.mpr ⟨ls', hlex, rfl⟩

/-- An operand in which each group closes stays without a group in a sequence exactly when each of
its choices and flags stands in a group of its own. -/
theorem needsGrouping_eq_false_iff (h : Cuts source.toList ls) (hcloses : closes? 0 ls = some 0) :
    needsGrouping source = .ok false ↔ ∀ k l, ls[k]? = some l →
      l.kind = .alternate ∨ l.kind = .flags → ∃ i j, Paired ls i j ∧ i < k ∧ k < j := by
  rw [h.needsGrouping_eq, Except.ok.injEq, Bool.or_eq_false_iff,
    hasOutside_eq_false_iff rfl LexemeKind.noConfusion hcloses,
    hasOutside_eq_false_iff rfl LexemeKind.noConfusion hcloses]
  simp only [or_imp, forall_and]

/-- An operand in which each group closes stays without a group in a choice exactly when its flags
stand in groups of its own. -/
theorem leaksFlags_eq_false_iff (h : Cuts source.toList ls) (hcloses : closes? 0 ls = some 0) :
    leaksFlags source = .ok false ↔ ∀ k l, ls[k]? = some l → l.kind = .flags →
      ∃ i j, Paired ls i j ∧ i < k ∧ k < j := by
  rw [h.leaksFlags_eq, Except.ok.injEq,
    hasOutside_eq_false_iff rfl LexemeKind.noConfusion hcloses]

end Cuts
end Tinct
