import Tinct.Proofs.Pattern.Pairing
import Tinct.Proofs.Pattern.Slicing

/-!
# Sources without their trailing lookaheads

What is taken off a source are elements at its end, the first of which opens a lookahead, and what
is left of the source is read as it was:

* `TakenOff`: elements that may be taken off;
* `exists_of_lowerLookaheads`: which elements are left and which are taken off.
-/

namespace Tinct

def LexemeKind.isLookahead : LexemeKind → Bool
  | .lookaheadOpen | .negativeLookaheadOpen => true
  | _ => false

theorem LexemeKind.isBackreference_of_isLookahead {k : LexemeKind} (h : k.isLookahead = true) :
    k.isBackreference = false := by
  cases k <;> first | rfl | cases h

/-- Elements that are taken off a source: there are none, or the first opens a lookahead, and none
of them refers back. -/
structure TakenOff (ls : List Lexeme) : Prop where
  head : ∀ l ∈ ls.head?, l.kind.isLookahead = true
  refers : ∀ l ∈ ls, l.kind.isBackreference = false

namespace TakenOff

theorem nil : TakenOff [] := ⟨nofun, nofun⟩

/-- A lookahead behind others that are taken off. -/
theorem append {ls inside : List Lexeme} {o c : Lexeme} (h : TakenOff ls)
    (ho : o.kind.isLookahead = true) (hc : c.kind = .close)
    (hinside : ∀ l ∈ inside, l.kind.isBackreference = false) :
    TakenOff (ls ++ o :: (inside ++ [c])) where
  head := by
    cases ls with
    | nil => simpa using ho
    | cons l ls => exact h.head
  refers := by
    refine List.forall_mem_append.mpr ⟨h.refers, List.forall_mem_cons.mpr ⟨?_, ?_⟩⟩
    · exact LexemeKind.isBackreference_of_isLookahead ho
    · refine List.forall_mem_append.mpr ⟨hinside, List.forall_mem_singleton.mpr ?_⟩
      rw [hc]
      rfl

end TakenOff

/-- Up to its closing parenthesis, a source goes on with a group behind what is in front of it. -/
theorem Paired.exists_take {ls : List Lexeme} {i j : Nat} (h : Paired ls i j) :
    ∃ o c, ls[i]? = some o ∧ c.kind = .close ∧
      ls.take (j + 1) = ls.take i ++ o :: ((ls.take j).drop (i + 1) ++ [c]) := by
  obtain ⟨front, o, inside, c, behind, rfl, hc, rfl, rfl⟩ := h.exists_split
  have hinside : ((front ++ o :: (inside ++ c :: behind)).take
      (front.length + 1 + inside.length)).drop (front.length + 1) = inside := by
    rw [List.drop_take, List.append_cons, List.drop_left' (by simp), List.take_left' (by omega)]
  have hgroup : front ++ o :: (inside ++ c :: behind) =
      (front ++ o :: (inside ++ [c])) ++ behind := by simp
  refine ⟨o, c, by simp, hc, ?_⟩
  rw [hinside, List.take_left, hgroup, List.take_left' (by simp; omega)]

theorem exists_of_trailingFollows {ls : List Lexeme} {ps : List (Nat × Nat)}
    (hps : pairs ls = .ok ps) {fuel stop rest : Nat} {follows : List FollowSource}
    {opens : List Nat}
    (h : trailingFollows ls ps fuel stop = .ok (follows, opens, rest)) :
    ∃ dropped, ls.take stop = ls.take rest ++ dropped ∧ TakenOff dropped := by
  induction fuel generalizing stop follows opens with
  | zero =>
    cases h
    exact ⟨[], (List.append_nil _).symm, .nil⟩
  | succ fuel ih =>
    rw [trailingFollows] at h
    split at h
    · cases h
      exact ⟨[], (List.append_nil _).symm, .nil⟩
    · rename_i o c hpair
      dsimp only at h
      split at h
      · cases h
        exact ⟨[], (List.append_nil _).symm, .nil⟩
      · rename_i negated hopener
        split at h
        · cases h
        · rename_i hinside
          obtain ⟨⟨follows, opens, stop'⟩, hfollows, h⟩ := bind_eq_ok.mp h
          cases h
          obtain ⟨dropped, hdropped, htaken⟩ := ih hfollows
          have hstop : c + 1 = stop := by simpa using List.find?_some hpair
          have hpaired := (mem_pairs_iff hps).mp (List.mem_of_find?_eq_some hpair)
          obtain ⟨l, k, hl, hk, htake⟩ := hpaired.exists_take
          refine ⟨dropped ++ l :: ((ls.take c).drop (o + 1) ++ [k]), ?_, htaken.append ?_ hk ?_⟩
          · rw [← hstop, htake, hdropped, List.append_assoc]
          · rw [hl, Option.map_some] at hopener
            cases hkind : l.kind <;> rw [hkind] at hopener <;> first | rfl | cases hopener
          · rw [List.any_eq_true] at hinside
            exact fun l hl => Bool.eq_false_iff.mpr fun h => hinside ⟨l, hl, h⟩

/-- What is left of a source without its trailing lookaheads, and what is taken off. -/
theorem exists_of_lowerLookaheads {source : String} {lowered : Lowered}
    (h : lowerLookaheads source = .ok lowered) :
    ∃ kept dropped, lex source = .ok (kept ++ dropped) ∧ TakenOff dropped ∧
      lowered.body = Lexeme.join kept ∧ lex lowered.body = .ok kept := by
  obtain ⟨ls, hls, h⟩ := bind_eq_ok.mp h
  obtain ⟨ps, hps, h⟩ := bind_eq_ok.mp h
  obtain ⟨⟨follows, opens, stop⟩, hfollows, h⟩ := bind_eq_ok.mp h
  obtain ⟨-, -, h⟩ := bind_eq_ok.mp h
  obtain ⟨dropped, hdropped, htaken⟩ := exists_of_trailingFollows hps hfollows
  rw [List.take_length] at hdropped
  have hbody : lowered.body = Lexeme.join (ls.take stop) := by
    dsimp only at h
    split at h
    · cases h
    · cases h
      rfl
  generalize ls.take stop = kept at hbody hdropped
  subst hdropped
  refine ⟨kept, dropped, hls, htaken, hbody, ?_⟩
  rw [hbody]
  exact @lex_join_of_slice source [] kept dropped hls

end Tinct
