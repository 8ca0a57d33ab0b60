import Mathlib.Data.List.Forall2
import Mathlib.Data.List.Sort
import Mathlib.Data.List.TakeWhile
import Tinct.Proofs.Scan.Classification
import Tinct.Proofs.Scan.Recovery
import Tinct.Registry

/-!
# What a detection finds

A detection scans a text once with each candidate and ranks what comes of it:

* `Grammar.accepts`: the text is legal in the grammar, so the grammar is in the running;
* `Leads`: a score has the highest relevance, and it is the first to have it;
* `ranked_cons`, `exists_of_ranked`: ranking puts the leading score first and ranks the others
  behind it;
* `detect_ranks`: so a detection reports the scores of the candidates in their order, the leading
  one and the one that leads the others; candidates out of the running do not matter, and of the
  order of the candidates nothing but who wins a tie depends.
-/

namespace Tinct

/-- The text is legal in the grammar. -/
def Grammar.accepts (text : String) (g : Grammar) : Bool := (g.tokenize .abort text).isOk

theorem Grammar.accepts_iff {g : Grammar} {text : String} :
    g.accepts text = true ↔ ∃ r, g.tokenize .abort text = .ok r := by
  rw [accepts]
  cases g.tokenize .abort text with
  | ok r => exact ⟨fun _ => ⟨r, rfl⟩, fun _ => rfl⟩
  | error e => exact ⟨nofun, fun ⟨_, h⟩ => by cases h⟩

/-- The score is the one that the grammar gets for the text. -/
def Score.IsOf (s : Score) (g : Grammar) (text : String) : Prop :=
  s.grammar = g ∧ ∃ r, g.tokenize .abort text = .ok r ∧ s.relevance = r.relevance

/-- The other score is the higher one. -/
def Score.isBelow (s s' : Score) : Bool := s.relevance < s'.relevance

/-- The score has the highest relevance among those in front of it and behind it, and it is the
first with that relevance. -/
structure Leads (s : Score) (front back : List Score) : Prop where
  front : ∀ s' ∈ front, s'.relevance < s.relevance
  back : ∀ s' ∈ back, s'.relevance ≤ s.relevance

/-! ## Scores -/

section scores
variable {g : Grammar} {text : String}

theorem scoresOf_cons_of_accepts {gs : List Grammar} {r : Tokenization}
    (h : g.tokenize .abort text = .ok r) :
    scoresOf (g :: gs) text = ⟨g, r.relevance⟩ :: scoresOf gs text := by
  rw [scoresOf, List.filterMap_cons, h, scoresOf]

theorem scoresOf_cons_of_not {gs : List Grammar} (h : ¬ g.accepts text) :
    scoresOf (g :: gs) text = scoresOf gs text := by
  rw [scoresOf, List.filterMap_cons]
  cases hr : g.tokenize .abort text with
  | ok r => exact absurd (Grammar.accepts_iff.mpr ⟨r, hr⟩) h
  | error e => rfl

/-- Each candidate in the running has its score, in the order of the candidates. -/
theorem scoresOf_isOf (gs : List Grammar) (text : String) :
    List.Forall₂ (fun g s => s.IsOf g text) (gs.filter (Grammar.accepts text))
      (scoresOf gs text) := by
  induction gs with
  | nil => exact .nil
  | cons g gs ih =>
    by_cases h : g.accepts text
    · obtain ⟨r, hr⟩ := Grammar.accepts_iff.mp h
      rw [List.filter_cons_of_pos h, scoresOf_cons_of_accepts hr]
      exact .cons ⟨rfl, r, hr, rfl⟩ ih
    · rw [List.filter_cons_of_neg h, scoresOf_cons_of_not h]
      exact ih

theorem scoresOf_append (gs gs' : List Grammar) :
    scoresOf (gs ++ gs') text = scoresOf gs text ++ scoresOf gs' text :=
  List.filterMap_append

end scores

/-! ## Ranking -/

section ranking
variable {s best : Score} {ss others : List Score}

theorem perm_ranked (ss : List Score) : (ranked ss).Perm ss := List.mergeSort_perm _ _

theorem rankedBefore_trans (a b c : Score) (hab : decide (b.relevance ≤ a.relevance) = true)
    (hbc : decide (c.relevance ≤ b.relevance) = true) : decide (c.relevance ≤ a.relevance) = true :=
  decide_eq_true (Nat.le_trans (of_decide_eq_true hbc) (of_decide_eq_true hab))

theorem rankedBefore_total (a b : Score) :
    (decide (b.relevance ≤ a.relevance) || decide (a.relevance ≤ b.relevance)) = true := by
  rw [Bool.or_eq_true, decide_eq_true_iff, decide_eq_true_iff]
  exact Nat.le_total _ _

theorem ranked_pairwise (ss : List Score) :
    (ranked ss).Pairwise fun a b => b.relevance ≤ a.relevance :=
  (List.pairwise_mergeSort rankedBefore_trans rankedBefore_total ss).imp of_decide_eq_true

theorem ranked_nil : ranked [] = [] := List.mergeSort_nil

theorem ranked_eq_nil_iff : ranked ss = [] ↔ ss = [] := by
  rw [← List.length_eq_zero_iff, (perm_ranked ss).length_eq, List.length_eq_zero_iff]

/-- A score in front of others is ranked behind those that are higher, and in front of the rest. -/
theorem ranked_cons (s : Score) (ss : List Score) :
    ranked (s :: ss) = (ranked ss).takeWhile s.isBelow ++ s :: (ranked ss).dropWhile s.isBelow := by
  have hsorted := ranked_pairwise (s :: ss)
  obtain ⟨higher, rest, hranked, hss, hhigher⟩ :=
    List.mergeSort_cons rankedBefore_trans rankedBefore_total s ss
  rw [ranked, hranked] at hsorted ⊢
  rw [ranked, hss]
  have htake : ∀ s' ∈ higher, s.isBelow s' = true := by
    intro s' hs'
    have hnot := of_decide_eq_false ((Bool.not_eq_true' _).mp (hhigher s' hs'))
    exact decide_eq_true (Nat.lt_of_not_le hnot)
  have hdrop : ∀ s' ∈ rest.head?, ¬ s.isBelow s' = true := by
    intro s' hs'
    have hlower := (List.pairwise_cons.mp (List.pairwise_append.mp hsorted).2.1).1
    rw [Score.isBelow, decide_eq_true_iff]
    exact Nat.not_lt_of_le (hlower s' (List.mem_of_mem_head? hs'))
  have hrest : rest.takeWhile s.isBelow = [] ∧ rest.dropWhile s.isBelow = rest := by
    cases rest with
    | nil => exact ⟨rfl, rfl⟩
    | cons s' rest =>
      have hneg := hdrop s' rfl
      exact ⟨List.takeWhile_cons_of_neg hneg, List.dropWhile_cons_of_neg hneg⟩
  rw [List.takeWhile_append_of_pos htake, List.dropWhile_append_of_pos htake, hrest.1, hrest.2,
    List.append_nil]

/-- What is ranked first leads, and behind it the others are ranked. -/
theorem exists_of_ranked (h : ranked ss = best :: others) :
    ∃ front back, ss = front ++ best :: back ∧ Leads best front back ∧
      ranked (front ++ back) = others := by
  induction ss generalizing best others with
  | nil =>
    rw [ranked_nil] at h
    cases h
  | cons s ss ih =>
    cases hss : ranked ss with
    | nil =>
      rw [ranked_cons, hss] at h
      cases h
      obtain rfl : ss = [] := ranked_eq_nil_iff.mp hss
      exact ⟨[], [], rfl, ⟨nofun, nofun⟩, ranked_nil⟩
    | cons first rest =>
      obtain ⟨front, back, rfl, hleads, hrest⟩ := ih hss
      by_cases hlt : s.relevance < first.relevance
      · have hpos : s.isBelow first = true := decide_eq_true hlt
        rw [ranked_cons, hss, List.takeWhile_cons_of_pos hpos, List.dropWhile_cons_of_pos hpos] at h
        rw [List.cons_append] at h
        obtain ⟨rfl, rfl⟩ := List.cons.inj h
        refine ⟨s :: front, back, rfl, ⟨?_, hleads.back⟩, ?_⟩
        · exact List.forall_mem_cons.mpr ⟨hlt, hleads.front⟩
        · rw [List.cons_append, ranked_cons, hrest]
      · have hneg : ¬ s.isBelow first = true := by rwa [Score.isBelow, decide_eq_true_iff]
        rw [ranked_cons, hss, List.takeWhile_cons_of_neg hneg, List.dropWhile_cons_of_neg hneg] at h
        obtain ⟨rfl, rfl⟩ := List.cons.inj h
        refine ⟨[], front ++ first :: back, rfl, ⟨nofun, fun s' hs' => ?_⟩, hss⟩
        -- what led the others is not higher than the score in front of them
        have hfirst : s'.relevance ≤ first.relevance := by
          obtain hs' | hs' := List.mem_append.mp hs'
          · exact (hleads.front s' hs').le
          · obtain rfl | hs' := List.mem_cons.mp hs'
            · exact Nat.le_refl _
            · exact hleads.back s' hs'
        exact hfirst.trans (Nat.le_of_not_lt hlt)

/-- The ranked relevances do not depend on the order of the scores. -/
theorem ranked_relevances {ss' : List Score} (h : ss.Perm ss') :
    (ranked ss).map (·.relevance) = (ranked ss').map (·.relevance) := by
  have hperm : ((ranked ss).map (·.relevance)).Perm ((ranked ss').map (·.relevance)) :=
    ((perm_ranked ss).trans (h.trans (perm_ranked ss').symm)).map _
  have hsorted (ss : List Score) : ((ranked ss).map (·.relevance)).Pairwise (· ≥ ·) :=
    List.pairwise_map.mpr (ranked_pairwise ss)
  exact hperm.eq_of_pairwise' (hsorted ss) (hsorted ss')

end ranking

/-! ## Detection -/

section detection
variable {candidates : List Grammar} {text : String}

theorem detect_eq_none_iff : detect candidates text = none ↔ scoresOf candidates text = [] := by
  unfold detect
  dsimp only
  rw [← ranked_eq_nil_iff]
  cases ranked (scoresOf candidates text) with
  | nil => exact ⟨fun _ => rfl, fun _ => rfl⟩
  | cons best others => exact ⟨nofun, nofun⟩

theorem ranked_of_detect {r : Detection} (h : detect candidates text = some r) :
    r.scores = scoresOf candidates text ∧
      ∃ others, ranked (scoresOf candidates text) = r.best :: others ∧
        r.secondBest = others.head? := by
  unfold detect at h
  dsimp only at h
  cases hranked : ranked (scoresOf candidates text) with
  | nil => rw [hranked] at h; cases h
  | cons best others =>
    rw [hranked] at h
    cases h
    exact ⟨rfl, others, rfl, rfl⟩

/-- Of a detection, the relevances of the best and of the second best. -/
def Detection.relevances (r : Detection) : Nat × Option Nat :=
  (r.best.relevance, r.secondBest.map (·.relevance))

theorem detect_relevances (candidates : List Grammar) (text : String) :
    (detect candidates text).map Detection.relevances =
      match (ranked (scoresOf candidates text)).map (·.relevance) with
      | [] => none
      | best :: others => some (best, others.head?) := by
  unfold detect
  dsimp only
  cases ranked (scoresOf candidates text) with
  | nil => rfl
  | cons best others => simp [Detection.relevances, List.head?_map]

/-- A detection finds nothing exactly if the text is legal in no candidate. Otherwise its scores are
those of the candidates in the running, in their order; the best is the first of those with the
highest relevance, and the second best is the first of those with the highest relevance among the
others, where there are others. A candidate that is out of the running may stand anywhere without
any effect, and the order of the candidates decides nothing but ties. -/
theorem detect_ranks (candidates : List Grammar) (text : String) :
    (detect candidates text = none ↔
      ∀ g ∈ candidates, ∀ r, g.tokenize .abort text ≠ .ok r) ∧
    (∀ r, detect candidates text = some r →
      List.Forall₂ (fun g s => s.IsOf g text) (candidates.filter (Grammar.accepts text)) r.scores ∧
      ∃ front back, r.scores = front ++ r.best :: back ∧ Leads r.best front back ∧
        match r.secondBest with
        | none => front ++ back = []
        | some s => ∃ front' back', front ++ back = front' ++ s :: back' ∧ Leads s front' back') ∧
    (∀ front back g, candidates = front ++ back → (∀ r, g.tokenize .abort text ≠ .ok r) →
      detect (front ++ g :: back) text = detect candidates text) ∧
    ∀ candidates', candidates.Perm candidates' →
      (detect candidates' text).map Detection.relevances =
        (detect candidates text).map Detection.relevances := by
  refine ⟨?_, fun r hr => ?_, fun front back g hcandidates hg => ?_, fun candidates' hperm => ?_⟩
  · rw [detect_eq_none_iff, ← List.length_eq_zero_iff, ← (scoresOf_isOf candidates text).length_eq,
      List.length_eq_zero_iff, List.filter_eq_nil_iff]
    refine forall₂_congr fun g _ => ?_
    rw [Grammar.accepts_iff, not_exists]
  · obtain ⟨hscores, others, hranked, hsecond⟩ := ranked_of_detect hr
    obtain ⟨front, back, hsplit, hleads, hothers⟩ := exists_of_ranked hranked
    rw [hscores]
    refine ⟨scoresOf_isOf candidates text, front, back, hsplit, hleads, ?_⟩
    rw [hsecond]
    cases others with
    | nil => exact ranked_eq_nil_iff.mp hothers
    | cons s others =>
      obtain ⟨front', back', hsplit', hleads', -⟩ := exists_of_ranked hothers
      exact ⟨front', back', hsplit', hleads'⟩
  · have hout : ¬ g.accepts text := fun h => by
      obtain ⟨r, hr⟩ := Grammar.accepts_iff.mp h
      exact hg r hr
    have hscores : scoresOf (front ++ g :: back) text = scoresOf candidates text := by
      rw [hcandidates, scoresOf_append, scoresOf_append, scoresOf_cons_of_not hout]
    rw [detect, detect, hscores]
  · have hscores : (scoresOf candidates' text).Perm (scoresOf candidates text) :=
      hperm.symm.filterMap _
    rw [detect_relevances, detect_relevances, ranked_relevances hscores]

/-- A word in square brackets is legal in two of three grammars. -/
theorem detect_ranks_remarks :
    ∃ r, detect [parentheses, roundParentheses, remarks] "[let]" = some r ∧ r.scores.length = 2 ∧
      ∃ front back, r.scores = front ++ r.best :: back ∧ Leads r.best front back := by
  obtain ⟨hnone, hsome, -⟩ := detect_ranks [parentheses, roundParentheses, remarks] "[let]"
  have hlegal : parentheses.accepts "[let]" = true := by decide +kernel
  have hcount : ([parentheses, roundParentheses, remarks].filter
      (Grammar.accepts "[let]")).length = 2 := by
    decide +kernel
  cases hr : detect [parentheses, roundParentheses, remarks] "[let]" with
  | none =>
    obtain ⟨t, ht⟩ := Grammar.accepts_iff.mp hlegal
    exact absurd ht (hnone.mp hr parentheses List.mem_cons_self t)
  | some r =>
    obtain ⟨hscores, front, back, hsplit, hleads, -⟩ := hsome r hr
    exact ⟨r, rfl, hscores.length_eq.symm.trans hcount, front, back, hsplit, hleads⟩

end detection
end Tinct
