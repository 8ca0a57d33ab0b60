import Tinct.Proofs.Pattern.Lowering
import Tinct.Proofs.Pattern.Outside

/-!
# The lookaheads that end a source

Lookaheads are taken off the end of a source one by one, each a group with all that it holds:

* `LookaheadGroup`, `TrailingRun`: such groups, and the longest run of them at the end of some
  elements;
* `exists_trailingRun`, `TrailingRun.unique`: any elements end in one such run;
* `trailingFollows_eq_run`: its groups are those that are taken off;
* `checkLookaround_eq_ok_iff`, `hasOutside_alternate_iff`: what is refused besides.
-/

namespace Tinct

theorem LexemeKind.opensGroup_of_isLookahead {k : LexemeKind} (h : k.isLookahead = true) :
    k.opensGroup = true := by
  cases k <;> first | rfl | cases h

/-- A parenthesis closes one group. -/
theorem Paired.unique_left {ls : List Lexeme} {i j a : Nat} (h : Paired ls i j)
    (h' : Paired ls a j) : a = i := by
  have hlt := h.lt
  have hlt' := h'.lt
  have hcases := h.cases_of h'
  omega

/-- A lookahead with all that it holds. -/
structure LookaheadGroup where
  opener : Lexeme
  inside : List Lexeme
  closer : Lexeme
  isLookahead : opener.kind.isLookahead = true
  isClose : closer.kind = .close
  balanced : closes? 0 inside = some 0

namespace LookaheadGroup

def lexemes (g : LookaheadGroup) : List Lexeme := g.opener :: (g.inside ++ [g.closer])

/-- What the lookahead looks for. -/
def follow (g : LookaheadGroup) : FollowSource :=
  ⟨Lexeme.join g.inside, g.opener.kind == .negativeLookaheadOpen⟩

/-- Whether the lookahead refers back to a group. -/
def refers (g : LookaheadGroup) : Bool := g.inside.any (·.kind.isBackreference)

theorem length_lexemes (g : LookaheadGroup) : g.lexemes.length = g.inside.length + 2 := by
  simp [lexemes]

theorem opensGroup (g : LookaheadGroup) : g.opener.kind.opensGroup = true :=
  LexemeKind.opensGroup_of_isLookahead g.isLookahead

theorem paired (g : LookaheadGroup) (front behind : List Lexeme) :
    Paired (front ++ (g.lexemes ++ behind)) front.length (front.length + 1 + g.inside.length) := by
  have hpaired :=
    (@Paired.length_iff front g.inside behind _ _ g.opensGroup g.isClose).mpr g.balanced
  simpa [lexemes] using hpaired

theorem closes?_lexemes (g : LookaheadGroup) (depth : Nat) :
    closes? depth g.lexemes = some depth := by
  have hinside := closes?_add g.balanced (depth + 1)
  rw [Nat.zero_add] at hinside
  rw [lexemes, closes?_cons_of_opens g.opensGroup, closes?_append, hinside, Option.bind_some]
  simp [closes?, g.isClose, LexemeKind.opensGroup]

/-- A pair of parentheses of which the first opens a lookahead. -/
theorem exists_of_paired {ls : List Lexeme} {i j : Nat} (h : Paired ls i j) {o : Lexeme}
    (ho : ls[i]? = some o) (hkind : o.kind.isLookahead = true) :
    ∃ g : LookaheadGroup, ls.take (j + 1) = ls.take i ++ g.lexemes := by
  obtain ⟨front, l, inside, c, behind, rfl, hc, rfl, rfl⟩ := h.exists_split
  obtain rfl : l = o := by simpa using ho
  have hbalanced := (Paired.length_iff (LexemeKind.opensGroup_of_isLookahead hkind) hc).mp h
  refine ⟨⟨l, inside, c, hkind, hc, hbalanced⟩, ?_⟩
  have hsplit : front ++ l :: (inside ++ c :: behind) =
      (front ++ l :: (inside ++ [c])) ++ behind := by simp
  rw [List.take_left, hsplit, List.take_left' (by simp; omega)]
  rfl

/-- The group that some elements end in. -/
theorem unique {front front' : List Lexeme} {g g' : LookaheadGroup}
    (h : front ++ g.lexemes = front' ++ g'.lexemes) : front = front' ∧ g = g' := by
  have hlength := congrArg List.length h
  simp only [List.length_append, length_lexemes] at hlength
  have hpaired := g.paired front []
  have hpaired' := g'.paired front' []
  rw [List.append_nil] at hpaired hpaired'
  rw [← h, show front'.length + 1 + g'.inside.length = front.length + 1 + g.inside.length by omega]
    at hpaired'
  obtain ⟨rfl, hlexemes⟩ := List.append_inj h (hpaired'.unique_left hpaired)
  obtain ⟨hopener, hrest⟩ := List.cons.inj hlexemes
  obtain ⟨hinside, hcloser⟩ := List.append_inj' hrest rfl
  refine ⟨rfl, ?_⟩
  cases g
  cases g'
  cases hopener
  cases hinside
  cases hcloser
  rfl

end LookaheadGroup

/-- The longest run of lookaheads at the end of some elements. -/
structure TrailingRun (ls front : List Lexeme) (run : List LookaheadGroup) : Prop where
  split : ls = front ++ run.flatMap (·.lexemes)
  maximal : ∀ (front' : List Lexeme) (g : LookaheadGroup), front ≠ front' ++ g.lexemes

theorem exists_trailingRun (ls : List Lexeme) :
    ∃ front run, TrailingRun ls front run := by
  induction hn : ls.length using Nat.strong_induction_on generalizing ls with
  | _ n ih =>
    by_cases hlast : ∃ (front : List Lexeme) (g : LookaheadGroup), ls = front ++ g.lexemes
    · obtain ⟨front, g, rfl⟩ := hlast
      rw [List.length_append, g.length_lexemes] at hn
      obtain ⟨front', run, hsplit, hmaximal⟩ := ih front.length (by omega) front rfl
      exact ⟨front', run ++ [g], by simp [hsplit], hmaximal⟩
    · exact ⟨ls, [], by simp, fun front g h => hlast ⟨front, g, h⟩⟩

namespace TrailingRun

theorem unique {ls front front' : List Lexeme} {run run' : List LookaheadGroup}
    (h : TrailingRun ls front run) (h' : TrailingRun ls front' run') :
    front' = front ∧ run' = run := by
  induction run using List.reverseRecOn generalizing ls run' with
  | nil =>
    obtain rfl : ls = front := by simpa using h.split
    obtain rfl | ⟨run', g', rfl⟩ := List.eq_nil_or_concat' run'
    · exact ⟨by simpa using h'.split.symm, rfl⟩
    · have hsplit := h'.split
      rw [List.flatMap_append, ← List.append_assoc, List.flatMap_singleton] at hsplit
      exact absurd hsplit (h.maximal _ g')
  | append_singleton run g ih =>
    have hsplit := h.split
    rw [List.flatMap_append, ← List.append_assoc, List.flatMap_singleton] at hsplit
    obtain rfl | ⟨run', g', rfl⟩ := List.eq_nil_or_concat' run'
    · obtain rfl : ls = front' := by simpa using h'.split
      exact absurd hsplit (h'.maximal _ g)
    · have hsplit' := h'.split
      rw [List.flatMap_append, ← List.append_assoc, List.flatMap_singleton] at hsplit'
      obtain ⟨hfront, rfl⟩ := LookaheadGroup.unique (hsplit.symm.trans hsplit')
      obtain ⟨rfl, rfl⟩ := ih ⟨rfl, h.maximal⟩ ⟨hfront, h'.maximal⟩
      exact ⟨rfl, rfl⟩

end TrailingRun

/-! ## What is taken off -/

/-- The positions of the opening parentheses of groups in a row, the first of which stands at `i`.
-/
def starts : Nat → List LookaheadGroup → List Nat
  | _, [] => []
  | i, g :: run => i :: starts (i + g.lexemes.length) run

theorem starts_append (i : Nat) (run run' : List LookaheadGroup) : starts i (run ++ run') =
    starts i run ++ starts (i + (run.flatMap (·.lexemes)).length) run' := by
  induction run generalizing i with
  | nil => rfl
  | cons g run ih =>
    rw [List.cons_append, starts, starts, ih, List.flatMap_cons, List.length_append, Nat.add_assoc]
    rfl

theorem le_of_mem_starts {i n : Nat} {run : List LookaheadGroup} (h : n ∈ starts i run) :
    i ≤ n := by
  induction run generalizing i with
  | nil => cases h
  | cons g run ih =>
    obtain rfl | h := List.mem_cons.mp h
    · exact Nat.le_refl _
    · exact (Nat.le_add_right ..).trans (ih h)

theorem find?_pairs {ls : List Lexeme} {ps : List (Nat × Nat)} (hps : pairs ls = .ok ps)
    {i j : Nat} (h : Paired ls i j) : ps.find? (·.2 + 1 == j + 1) = some (i, j) := by
  cases hfind : ps.find? (·.2 + 1 == j + 1) with
  | none =>
    have hnone := List.find?_eq_none.mp hfind (i, j) ((mem_pairs_iff hps).mpr h)
    exact absurd (beq_self_eq_true (j + 1)) hnone
  | some p =>
    obtain ⟨a, b⟩ := p
    obtain rfl : b = j := by simpa using List.find?_some hfind
    have hpaired := (mem_pairs_iff hps).mp (List.mem_of_find?_eq_some hfind)
    rw [h.unique_left hpaired]

/-- Nothing is taken off where no lookahead ends. -/
theorem trailingFollows_eq_nil {ls front behind : List Lexeme} {ps : List (Nat × Nat)}
    (hps : pairs ls = .ok ps) (hls : ls = front ++ behind)
    (hmaximal : ∀ (front' : List Lexeme) (g : LookaheadGroup), front ≠ front' ++ g.lexemes)
    (fuel : Nat) : trailingFollows ls ps fuel front.length = .ok ([], [], front.length) := by
  cases fuel with
  | zero => rfl
  | succ fuel =>
    rw [trailingFollows]
    split
    · rfl
    · rename_i o c hfind
      have hc : c + 1 = front.length := by simpa using List.find?_some hfind
      have hpaired := (mem_pairs_iff hps).mp (List.mem_of_find?_eq_some hfind)
      dsimp only
      split
      · rfl
      · rename_i negated hopener
        obtain ⟨l, hl, hkind⟩ : ∃ l, ls[o]? = some l ∧ l.kind.isLookahead = true := by
          cases hl : ls[o]? with
          | none =>
            rw [hl] at hopener
            cases hopener
          | some l =>
            rw [hl, Option.map_some] at hopener
            refine ⟨l, rfl, ?_⟩
            cases hkind : l.kind <;> rw [hkind] at hopener <;> first | rfl | cases hopener
        obtain ⟨g, hg⟩ := LookaheadGroup.exists_of_paired hpaired hl hkind
        rw [hc, hls, List.take_left] at hg
        exact absurd hg (hmaximal _ g)

/-- The lookaheads of the longest run are taken off, and nothing else. -/
theorem trailingFollows_eq_run {ls front behind : List Lexeme} {run : List LookaheadGroup}
    {ps : List (Nat × Nat)} (hps : pairs ls = .ok ps)
    (hls : ls = front ++ run.flatMap (·.lexemes) ++ behind)
    (hmaximal : ∀ (front' : List Lexeme) (g : LookaheadGroup), front ≠ front' ++ g.lexemes)
    {fuel : Nat} (hfuel : run.length ≤ fuel) :
    trailingFollows ls ps fuel (front ++ run.flatMap (·.lexemes)).length =
      if run.any (·.refers) then .error .backreferenceInLookahead
      else .ok ((run.map (·.follow)).reverse, (starts front.length run).reverse, front.length) := by
  induction run using List.reverseRecOn generalizing behind fuel with
  | nil =>
    rw [List.flatMap_nil, List.append_nil] at hls ⊢
    exact trailingFollows_eq_nil hps hls hmaximal fuel
  | append_singleton run g ih =>
    rw [List.length_append, List.length_singleton] at hfuel
    obtain ⟨fuel, rfl⟩ : ∃ n, fuel = n + 1 := ⟨fuel - 1, by omega⟩
    rw [List.flatMap_append, List.flatMap_singleton, ← List.append_assoc] at hls ⊢
    specialize @ih (g.lexemes ++ behind) (by rw [hls, List.append_assoc]) fuel (by omega)
    generalize hkept : front ++ run.flatMap (·.lexemes) = kept at hls ih ⊢
    have hpaired := g.paired kept behind
    rw [← List.append_assoc, ← hls] at hpaired
    have hstop : (kept ++ g.lexemes).length = kept.length + 1 + g.inside.length + 1 := by
      rw [List.length_append, g.length_lexemes]
      omega
    have hget : ls[kept.length]? = some g.opener := by
      rw [hls, List.append_assoc]
      simp [LookaheadGroup.lexemes]
    have hinside :
        (ls.take (kept.length + 1 + g.inside.length)).drop (kept.length + 1) = g.inside := by
      have hsplit : ls = kept ++ [g.opener] ++ (g.inside ++ g.closer :: behind) := by
        simp [hls, LookaheadGroup.lexemes]
      rw [hsplit, List.drop_take, List.drop_left' (by simp), List.take_left' (by omega)]
    have hrest : starts front.length (run ++ [g]) = starts front.length run ++ [kept.length] := by
      rw [starts_append, ← hkept, List.length_append]
      rfl
    rw [hstop, trailingFollows, find?_pairs hps hpaired]
    dsimp only
    rw [hget, Option.map_some, hinside, ih, hrest, List.any_append, List.any_cons, List.any_nil,
      Bool.or_false]
    split
    · rename_i hnone
      have hlookahead := g.isLookahead
      cases hkind : g.opener.kind <;> rw [hkind] at hnone hlookahead <;>
        first | exact Bool.noConfusion hlookahead | cases hnone
    · rename_i negated hsome
      obtain rfl : negated = (g.opener.kind == .negativeLookaheadOpen) := by
        cases hkind : g.opener.kind <;> rw [hkind] at hsome <;> cases hsome <;> rfl
      rw [← LookaheadGroup.refers, List.map_append, List.reverse_append, List.reverse_append]
      cases g.refers <;> cases run.any (·.refers) <;> rfl

/-! ## What is refused -/

def LexemeKind.isLookaround : LexemeKind → Bool
  | .lookaheadOpen | .negativeLookaheadOpen | .lookbehindOpen => true
  | _ => false

theorem LexemeKind.isLookaround_eq_false_iff {k : LexemeKind} :
    k.isLookaround = false ↔ k ≠ .lookbehindOpen ∧ k.isLookahead = false := by
  cases k <;> decide

theorem checkLookaround_append (opens : List Nat) (i : Nat) (ls ks : List Lexeme) :
    checkLookaround opens i (ls ++ ks) =
      checkLookaround opens i ls >>= fun _ => checkLookaround opens (i + ls.length) ks := by
  induction ls generalizing i with
  | nil => rfl
  | cons l ls ih =>
    rw [List.cons_append, checkLookaround, checkLookaround, ih, List.length_cons,
      Nat.add_right_comm, Nat.add_assoc]
    split
    · rfl
    · split <;> rfl
    · split <;> rfl
    · rfl

/-- Where no lookahead may open, none does. -/
theorem checkLookaround_eq_ok_iff {opens : List Nat} {i : Nat} {ls : List Lexeme}
    (hopens : ∀ n ∈ opens, n < i ∨ i + ls.length ≤ n) :
    checkLookaround opens i ls = .ok () ↔ ∀ l ∈ ls, l.kind.isLookaround = false := by
  induction ls generalizing i with
  | nil => simp [checkLookaround]
  | cons l ls ih =>
    rw [List.length_cons] at hopens
    have hnot : opens.contains i = false := by
      refine Bool.eq_false_iff.mpr fun h => ?_
      have hi := hopens i (List.contains_iff_mem.mp h)
      omega
    have hrest := ih (i := i + 1) fun n hn => by
      have hi := hopens n hn
      omega
    rw [List.forall_mem_cons, checkLookaround, hnot]
    split
    · rename_i hkind
      simp [hkind, LexemeKind.isLookaround]
    · rename_i hkind
      simp [hkind, LexemeKind.isLookaround]
    · rename_i hkind
      simp [hkind, LexemeKind.isLookaround]
    · rename_i hbehind hahead hnegative
      have hl : l.kind.isLookaround = false := by
        unfold LexemeKind.isLookaround
        split <;> first | rfl | contradiction
      rw [hrest]
      exact (and_iff_right hl).symm

theorem checkLookaround_run {opens : List Nat} {i : Nat} {run : List LookaheadGroup}
    (hopens : ∀ n, i ≤ n → (n ∈ opens ↔ n ∈ starts i run)) :
    checkLookaround opens i (run.flatMap (·.lexemes)) = .ok () ↔
      ∀ g ∈ run, ∀ l ∈ g.inside, l.kind.isLookaround = false := by
  induction run generalizing i with
  | nil => simp [checkLookaround]
  | cons g run ih =>
    have hlength := g.length_lexemes
    have hmem (n : Nat) (hn : i + 1 ≤ n) : n ∈ opens ↔ n ∈ starts (i + g.lexemes.length) run := by
      rw [hopens n (by omega), starts, List.mem_cons, or_iff_right (by omega)]
    have hopener : checkLookaround opens i (g.lexemes ++ run.flatMap (·.lexemes)) =
        checkLookaround opens (i + 1) (g.inside ++ [g.closer] ++ run.flatMap (·.lexemes)) := by
      have hcontains : opens.contains i = true :=
        List.contains_iff_mem.mpr ((hopens i (Nat.le_refl i)).mpr List.mem_cons_self)
      have hlookahead := g.isLookahead
      rw [LookaheadGroup.lexemes, List.cons_append, checkLookaround, hcontains]
      cases hkind : g.opener.kind <;> rw [hkind] at hlookahead <;>
        first | exact Bool.noConfusion hlookahead | rfl
    have hinside := @checkLookaround_eq_ok_iff opens (i + 1) (g.inside ++ [g.closer]) fun n hn => by
        by_cases hlt : n < i + 1
        · exact .inl hlt
        · have hle := le_of_mem_starts ((hmem n (by omega)).mp hn)
          simp only [List.length_append, List.length_singleton]
          omega
    have hrest := ih (i := i + g.lexemes.length) fun n hn => hmem n (by omega)
    have hcloser : g.closer.kind.isLookaround = false := by rw [g.isClose]; rfl
    have hend : i + 1 + (g.inside ++ [g.closer]).length = i + g.lexemes.length := by
      simp only [List.length_append, List.length_singleton]
      omega
    rw [List.flatMap_cons, hopener, checkLookaround_append, hend, List.forall_mem_cons, ← hrest,
      bind_eq_ok]
    simp only [hinside, List.forall_mem_append, List.forall_mem_singleton, hcloser, and_true]
    simp

/-- A choice outside every group, `depth` groups being open in front. -/
def HasChoice (depth : Nat) (ls : List Lexeme) : Prop :=
  ∃ before bar after, ls = before ++ bar :: after ∧ bar.kind = .alternate ∧
    closes? depth before = some 0

/-- Where no group is closed that is not open, the reader finds the choices outside every group. -/
theorem hasOutside_alternate_iff {depth d : Nat} {ls : List Lexeme}
    (h : closes? depth ls = some d) :
    hasOutside .alternate depth ls = true ↔ HasChoice depth ls := by
  rw [hasOutside_iff rfl LexemeKind.noConfusion h]
  constructor
  · rintro ⟨k, bar, hbar, hkind, hfront⟩
    obtain ⟨hk, rfl⟩ := List.getElem?_eq_some_iff.mp hbar
    refine ⟨ls.take k, ls[k], ls.drop (k + 1), ?_, hkind, hfront⟩
    rw [List.getElem_cons_drop, List.take_append_drop]
  · rintro ⟨before, bar, after, rfl, hkind, hfront⟩
    exact ⟨before.length, bar, by simp, hkind, by rwa [List.take_left]⟩

namespace TrailingRun
variable {ls front : List Lexeme} {run : List LookaheadGroup}

theorem closes?_run (run : List LookaheadGroup) (depth : Nat) :
    closes? depth (run.flatMap (·.lexemes)) = some depth := by
  induction run with
  | nil => rfl
  | cons g run ih => rw [List.flatMap_cons, closes?_append, g.closes?_lexemes, Option.bind_some, ih]

theorem closes?_eq (h : TrailingRun ls front run) (depth : Nat) :
    closes? depth ls = closes? depth front := by
  rw [h.split, closes?_append]
  cases hfront : closes? depth front with
  | none => rfl
  | some d => exact closes?_run run d

theorem length_le (h : TrailingRun ls front run) : run.length ≤ ls.length := by
  have hrun (run : List LookaheadGroup) : run.length ≤ (run.flatMap (·.lexemes)).length := by
    induction run with
    | nil => exact Nat.le_refl _
    | cons g run ih =>
      rw [List.flatMap_cons, List.length_append, List.length_cons, g.length_lexemes]
      omega
  rw [h.split, List.length_append]
  exact (hrun run).trans (Nat.le_add_left ..)

theorem mem_lexemes (h : TrailingRun ls front run) {g : LookaheadGroup} (hg : g ∈ run) {l : Lexeme}
    (hl : l ∈ g.lexemes) : l ∈ ls := by
  rw [h.split]
  exact List.mem_append_right front (List.mem_flatMap.mpr ⟨g, hg, hl⟩)

/-- What is left of the elements without the parentheses of the run. -/
theorem mem_of_mem_inside (h : TrailingRun ls front run) {l : Lexeme}
    (hl : l ∈ front ++ run.flatMap (·.inside)) : l ∈ ls := by
  obtain hl | hl := List.mem_append.mp hl
  · rw [h.split]
    exact List.mem_append_left _ hl
  · obtain ⟨g, hg, hl⟩ := List.mem_flatMap.mp hl
    exact h.mem_lexemes hg (by simp [LookaheadGroup.lexemes, hl])

theorem mem_inside_of_mem (h : TrailingRun ls front run) {l : Lexeme} (hl : l ∈ ls)
    (hkind : l.kind = .lookbehindOpen) : l ∈ front ++ run.flatMap (·.inside) := by
  rw [h.split] at hl
  obtain hl | hl := List.mem_append.mp hl
  · exact List.mem_append_left _ hl
  · obtain ⟨g, hg, hl⟩ := List.mem_flatMap.mp hl
    refine List.mem_append_right _ (List.mem_flatMap.mpr ⟨g, hg, ?_⟩)
    obtain rfl | hl := List.mem_cons.mp hl
    · have hlookahead := g.isLookahead
      rw [hkind] at hlookahead
      cases hlookahead
    obtain hl | hl := List.mem_append.mp hl
    · exact hl
    · obtain rfl := List.mem_singleton.mp hl
      exact absurd (hkind.symm.trans g.isClose) (by decide)

/-- Lookaround is refused unless it opens a group of the run. -/
theorem checkLookaround_eq_ok_iff (h : TrailingRun ls front run) :
    checkLookaround (starts front.length run).reverse 0 ls = .ok () ↔
      ∀ l ∈ front ++ run.flatMap (·.inside), l.kind.isLookaround = false := by
  have hfront := @Tinct.checkLookaround_eq_ok_iff (starts front.length run).reverse 0 front
    fun n hn => by
      have hle := le_of_mem_starts (List.mem_reverse.mp hn)
      omega
  have hrest := @checkLookaround_run (starts front.length run).reverse front.length run
    fun n _ => List.mem_reverse
  rw [h.split, checkLookaround_append, bind_eq_ok, Nat.zero_add, hrest]
  simp only [hfront, List.forall_mem_append, List.forall_mem_flatMap]
  simp

end TrailingRun

/-! ## Lowering a source -/

/-- Lookaheads are taken off a source if each group closes, no lookaround is left, what is taken off
does not refer back, and it stands behind no choice. -/
theorem lowerLookaheads_eq_ok_iff {source : String} {ls front : List Lexeme}
    {run : List LookaheadGroup} {lowered : Lowered} (hls : lex source = .ok ls)
    (hrun : TrailingRun ls front run) :
    lowerLookaheads source = .ok lowered ↔
      closes? 0 ls = some 0 ∧ (∀ l ∈ front ++ run.flatMap (·.inside), l.kind.isLookaround = false) ∧
        run.any (·.refers) = false ∧ ¬(run ≠ [] ∧ HasChoice 0 front) ∧
        ⟨Lexeme.join front, (run.map (·.follow)).reverse⟩ = lowered := by
  by_cases hcloses : closes? 0 ls = some 0
  · obtain ⟨ps, hps⟩ := @exists_pairsFrom ls [] hcloses 0
    change pairs ls = .ok ps at hps
    have hsplit : ls = front ++ run.flatMap (·.lexemes) ++ [] := by simpa using hrun.split
    have hfollows := trailingFollows_eq_run hps hsplit hrun.maximal hrun.length_le
    rw [← hrun.split] at hfollows
    have hchoice := hasOutside_alternate_iff (hrun.closes?_eq 0 ▸ hcloses)
    have htake : ls.take front.length = front := by rw [hrun.split, List.take_left]
    simp only [lowerLookaheads, bind_eq_ok, hls, hps, hfollows, Except.ok.injEq, exists_eq_left']
    split
    · rename_i hrefers
      simp [hrefers]
    · rename_i hrefers
      rw [← hrun.checkLookaround_eq_ok_iff, ← hchoice]
      simp only [Except.ok.injEq, exists_eq_left', htake, hcloses, hrefers, true_and]
      have hcondition : (!(run.map (·.follow)).reverse.isEmpty &&
          hasOutside .alternate 0 front) = true ↔
            run ≠ [] ∧ hasOutside .alternate 0 front = true := by
        simp
      refine ⟨fun ⟨_, hlook, h⟩ => ⟨hlook, ?_⟩, fun ⟨hlook, hno, h⟩ => ⟨(), hlook, ?_⟩⟩
      · split at h
        · cases h
        · rename_i hno
          exact ⟨hcondition.not.mp hno, Except.ok.inj h⟩
      · rw [if_neg (hcondition.not.mpr hno), h]
        rfl
  · have hpairs (ps : List (Nat × Nat)) : pairs ls ≠ .ok ps := fun hps =>
      hcloses (closes?_of_pairs hps)
    simp only [lowerLookaheads, bind_eq_ok, hls, Except.ok.injEq, exists_eq_left']
    simp [hpairs, hcloses]

/-- The source of a lookahead. -/
def FollowSource.written (f : FollowSource) : String :=
  (if f.negated then "(?!" else "(?=") ++ f.source ++ ")"

theorem Lexeme.join_append (ls ks : List Lexeme) :
    Lexeme.join (ls ++ ks) = Lexeme.join ls ++ Lexeme.join ks := by
  rw [Lexeme.join, List.flatMap_append, String.ofList_append]
  rfl

/-- The elements of a source that end at their own end have the texts of their kinds. -/
theorem hasText_of_lex {source : String} {ls : List Lexeme} (h : lex source = .ok ls) {l : Lexeme}
    (hl : l ∈ ls) (hkind : l.kind.isClosed = true) : LexemeKind.HasText l.kind l.text := by
  have hne {k : LexemeKind} (hk : k.isClosed = false) : l.kind ≠ k := by
    rintro rfl
    exact Bool.false_ne_true (hk.symm.trans hkind)
  cases (lex_eq_ok_iff.mp h).steady hl (hne rfl) (hne rfl) with
  | closed htext => exact htext
  | plain | backref | brace => cases hkind

namespace LexemeKind.HasText
variable {kind : LexemeKind} {text : List Char}

theorem eq_of_close (h : HasText .close text) : text = [')'] := by
  cases h
  rfl

theorem eq_of_isLookahead (h : HasText kind text) (hkind : kind.isLookahead = true) :
    text = if kind == .negativeLookaheadOpen then ['(', '?', '!'] else ['(', '?', '='] := by
  cases h <;> first | exact Bool.noConfusion hkind | rfl

end LexemeKind.HasText

theorem LexemeKind.isClosed_of_isLookahead {k : LexemeKind} (h : k.isLookahead = true) :
    k.isClosed = true := by
  cases k <;> first | rfl | cases h

/-- A group of a source is written as what it looks for. -/
theorem LookaheadGroup.join_lexemes {source : String} {ls : List Lexeme} (h : lex source = .ok ls)
    {g : LookaheadGroup} (hg : ∀ l ∈ g.lexemes, l ∈ ls) :
    Lexeme.join g.lexemes = g.follow.written := by
  have hcloser := hasText_of_lex h (hg g.closer (by simp [lexemes])) (by rw [g.isClose]; rfl)
  rw [g.isClose] at hcloser
  have hopener := (hasText_of_lex h (hg g.opener (by simp [lexemes]))
    (LexemeKind.isClosed_of_isLookahead g.isLookahead)).eq_of_isLookahead g.isLookahead
  refine String.toList_inj.mp ?_
  rw [Lexeme.join, String.toList_ofList, lexemes, List.flatMap_cons, List.flatMap_append,
    List.flatMap_singleton, hcloser.eq_of_close, hopener, FollowSource.written, follow]
  split <;> simp [Lexeme.join]

/-- A source in which each group closes and none looks around. -/
def LooksNowhere (source : String) : Prop :=
  ∃ ls, lex source = .ok ls ∧ closes? 0 ls = some 0 ∧ ∀ l ∈ ls, l.kind.isLookaround = false

/-- Elements in a row are read as they are by themselves. -/
theorem LooksNowhere.of_slice {source : String} {front inside behind : List Lexeme}
    (h : lex source = .ok (front ++ (inside ++ behind))) (hcloses : closes? 0 inside = some 0)
    (hlook : ∀ l ∈ inside, l.kind.isLookaround = false) : LooksNowhere (Lexeme.join inside) :=
  ⟨inside, lex_join_of_slice h, hcloses, hlook⟩

/-- The follow sources of a run, in the order in which its groups stand. -/
theorem TrailingRun.join_run {source : String} {ls front : List Lexeme} {run : List LookaheadGroup}
    (hls : lex source = .ok ls) (h : TrailingRun ls front run) :
    source = Lexeme.join front ++ String.join (run.map (·.follow.written)) := by
  have hwritten : run.map (·.follow.written) = run.map (fun g => Lexeme.join g.lexemes) :=
    List.map_congr_left fun g hg => (LookaheadGroup.join_lexemes hls fun l => h.mem_lexemes hg).symm
  rw [← join_of_lex hls, h.split, Lexeme.join_append, hwritten]
  refine congrArg (Lexeme.join front ++ ·) (String.toList_inj.mp ?_)
  simp [Lexeme.join, String.toList_join, List.flatMap_assoc, List.flatMap_map]

/-- Lookaheads are refused where groups do not close, where any lookbehind stands or any lookahead
but those that end the source, where one of these refers back, and where they stand behind a choice.
Otherwise they and what is left make up the source, and none of these looks around. -/
theorem lowerLookaheads_exact {source : String} {ls : List Lexeme} (hls : lex source = .ok ls) :
    ∃ front run, TrailingRun ls front run ∧
      (∀ front' run', TrailingRun ls front' run' → front' = front ∧ run' = run) ∧
      ((∃ e, lowerLookaheads source = .error e) ↔
        closes? 0 ls ≠ some 0 ∨ (∃ l ∈ ls, l.kind = .lookbehindOpen) ∨
          (∃ l ∈ front ++ run.flatMap (·.inside), l.kind.isLookahead = true) ∨
          (∃ g ∈ run, ∃ l ∈ g.inside, l.kind.isBackreference = true) ∨
          (run ≠ [] ∧ HasChoice 0 front)) ∧
      ∀ lowered, lowerLookaheads source = .ok lowered →
        source = lowered.body ++ String.join (lowered.follows.reverse.map (·.written)) ∧
        ∀ s ∈ lowered.body :: lowered.follows.map (·.source), LooksNowhere s := by
  obtain ⟨front, run, hrun⟩ := exists_trailingRun ls
  refine ⟨front, run, hrun, fun front' run' h => hrun.unique h, ?_, fun lowered hlowered => ?_⟩
  · have hrefers : run.any (·.refers) = false ↔
        ¬∃ g ∈ run, ∃ l ∈ g.inside, l.kind.isBackreference = true := by
      simp [LookaheadGroup.refers]
    have hlook : (∀ l ∈ front ++ run.flatMap (·.inside), l.kind.isLookaround = false) ↔
        ¬((∃ l ∈ ls, l.kind = .lookbehindOpen) ∨
          ∃ l ∈ front ++ run.flatMap (·.inside), l.kind.isLookahead = true) := by
      simp only [LexemeKind.isLookaround_eq_false_iff]
      constructor
      · rintro h (⟨l, hl, hkind⟩ | ⟨l, hl, hkind⟩)
        · exact (h l (hrun.mem_inside_of_mem hl hkind)).1 hkind
        · exact Bool.false_ne_true ((h l hl).2.symm.trans hkind)
      · intro h l hl
        refine ⟨fun hkind => h (.inl ⟨l, hrun.mem_of_mem_inside hl, hkind⟩), ?_⟩
        exact Bool.eq_false_iff.mpr fun hkind => h (.inr ⟨l, hl, hkind⟩)
    have herror : (∃ e, lowerLookaheads source = .error e) ↔
        ¬∃ lowered, lowerLookaheads source = .ok lowered := by
      cases lowerLookaheads source <;> simp
    rw [herror]
    simp only [lowerLookaheads_eq_ok_iff hls hrun, hrefers, hlook, exists_and_left, exists_eq',
      and_true]
    generalize (run ≠ [] ∧ HasChoice 0 front) = behindChoice
    simp only [not_and_or, not_not, or_assoc, ne_eq]
  · obtain ⟨hcloses, hlook, -, -, rfl⟩ := (lowerLookaheads_eq_ok_iff hls hrun).mp hlowered
    obtain ⟨hfront, hinside⟩ := List.forall_mem_append.mp hlook
    dsimp only
    refine ⟨?_, List.forall_mem_cons.mpr ⟨?_, ?_⟩⟩
    · rw [List.reverse_reverse, List.map_map]
      exact hrun.join_run hls
    · exact @LooksNowhere.of_slice _ [] _ _ (hrun.split ▸ hls) (hrun.closes?_eq 0 ▸ hcloses) hfront
    · intro s hs
      obtain ⟨f, hf, rfl⟩ := List.mem_map.mp hs
      obtain ⟨g, hg, rfl⟩ := List.mem_map.mp (List.mem_reverse.mp hf)
      obtain ⟨before, after, rfl⟩ := List.append_of_mem hg
      have hsplit : ls = front ++ before.flatMap (·.lexemes) ++ [g.opener] ++
          (g.inside ++ (g.closer :: after.flatMap (·.lexemes))) := by
        simp [hrun.split, LookaheadGroup.lexemes]
      exact .of_slice (hsplit ▸ hls) g.balanced fun l hl =>
        hinside l (List.mem_flatMap.mpr ⟨g, hg, hl⟩)

theorem lowerLookaheads_exact_word : ∃ ls, lex "a(?=b)(?!c)" = .ok ls ∧
    ∃ front run, TrailingRun ls front run ∧
      ∀ lowered, lowerLookaheads "a(?=b)(?!c)" = .ok lowered →
        "a(?=b)(?!c)" = lowered.body ++ String.join (lowered.follows.reverse.map (·.written)) := by
  obtain ⟨ls, hls, -⟩ := exists_ok (f := List.length) (b := 7)
    (show (lex "a(?=b)(?!c)").toOption.map List.length = some 7 by decide +kernel)
  obtain ⟨front, run, hrun, -, -, h⟩ := lowerLookaheads_exact hls
  exact ⟨ls, hls, front, run, hrun, fun lowered hlowered => (h lowered hlowered).1⟩

end Tinct
