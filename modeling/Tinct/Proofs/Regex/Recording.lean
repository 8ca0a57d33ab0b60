import Tinct.Proofs.Regex.Preference

/-!
# What the groups of a match record

Threads in step record what backtracking records on its way to the same match:

* `Program.runFrom_eager_eq`: a run that asks assertions at once finds the first match, with what it
  has recorded;
* `Regex.eagerFrom?_eq_find?`: so does a regular expression inside any part of a text;
* `Regex.finishFrom?_eq_find?`: and so it does where a late search tells first how far to go.
-/

namespace Tinct.Regex

namespace Program
variable {p : Program} {t : Text}

theorem firstFinish_hitsByNode (p : Program) (t : Text) (left i : Nat) :
    p.HitsByNode (p.firstFinish t left i) where
  stays th h := by
    rw [← Option.map_eq_none_iff (f := (·.stop)), map_stop_firstFinish]
    exact p.firstEnd_hitsStays t left i th.node h
  node th th' hnode h := by
    rw [← Option.map_eq_none_iff (f := (·.stop)), map_stop_firstFinish] at h ⊢
    rwa [← hnode]

theorem head?_finishesFrom (p : Program) (t : Text) (left i : Nat) (th : Thread) :
    (p.finishesFrom t left i th).head? =
      (p.ways (·.holds t i) i (List.range p.nodes.size) th).findSome? (p.firstFinish t left i) := by
  rw [finishesFrom_eq, List.head?_flatMap]
  rfl

/-- The threads at a position hold the first match that goes on from those that come there. -/
theorem findSome?_arrive (left i : Nat) (threads : List Thread) :
    (p.arrive .eager t i threads).findSome? (p.firstFinish t left i) =
      threads.findSome? fun th => (p.finishesFrom t left i th).head? := by
  simp only [arrive, findSome?_spread_ways (p.firstFinish_hitsByNode t left i),
    findSome?_flatMap, head?_finishesFrom]

theorem settle_eager (i : Nat) (threads : List Thread) : p.settle .eager t i threads = threads :=
  if_neg fun h => nomatch h.1

/-- A run that asks assertions at once finds the first match that goes on from its threads, or else
the best so far. -/
theorem run_eager_eq {w : Window} {fuel i : Nat} {threads : List Thread} {best? : Option Finish}
    {fresh : Bool} (hi : i ≤ w.stop) (hfuel : fuel + i = w.stop + 1) :
    p.run .eager w fuel i threads best? fresh =
      run.ended ((threads.findSome? (p.firstFinish w.text (w.stop - i) i)).or best?) := by
  have hc (i : Nat) : (if i < w.stop then w.text.after? i else none) =
      if 0 < w.stop - i then w.text.after? i else none := by
    simp only [Nat.sub_pos_iff_lt]
  fun_induction run p .eager w fuel i threads best? fresh with
  | case1 => omega
  | case2 fuel i threads best? fresh hempty =>
    rw [Bool.and_eq_true, List.isEmpty_iff] at hempty
    rw [hempty.1, List.findSome?_nil, Option.none_or]
  | case3 fuel i threads best? fresh c? _ hstops => exact absurd hstops Bool.false_ne_true
  | case4 fuel i threads best? fresh c? _ _ inside here live accepted? hstep best hin ih =>
    have hfirst := @findSome?_firstFinish_step p _ _ i _ (hc i) here
    have hleft : w.stop - i = w.stop - (i + 1) + 1 := by omega
    have hlive : live.findSome? (fun th => (p.finishesBehind w.text (w.stop - i) i th).head?) =
        (p.arrive .eager w.text (i + 1) live).findSome?
          (p.firstFinish w.text (w.stop - (i + 1)) (i + 1)) := by
      rw [findSome?_arrive, hleft]
      rfl
    have hhere : here = threads := settle_eager i threads
    rw [hstep, hlive, hhere] at hfirst
    rw [ih hin (by omega), hfirst, Option.or_assoc]
  | case5 fuel i threads best? fresh c? _ _ inside here live accepted? hstep best hin =>
    have hfirst := @findSome?_firstFinish_step p _ _ i _ (hc i) here
    have hleft : w.stop - i = 0 := Nat.sub_eq_zero_of_le (Nat.le_of_not_lt hin)
    have hnone : live.findSome? (fun th => (p.finishesBehind w.text 0 i th).head?) = none :=
      List.findSome?_eq_none_iff.mpr fun _ _ => rfl
    have hhere : here = threads := settle_eager i threads
    rw [hstep, hleft, hnone, Option.none_or, hhere] at hfirst
    rw [hleft, hfirst]

/-- A run from a position that asks assertions at once finds the first match in the window. -/
theorem runFrom_eager_eq {w : Window} {start : Nat} (h : start ≤ w.stop) :
    p.runFrom .eager w start =
      run.ended (p.finishesFrom w.text (w.stop - start) start ⟨p.start, []⟩).head? := by
  rw [runFrom, if_neg (show p.stops .eager _ ≠ true from Bool.false_ne_true),
    run_eager_eq h (by omega), findSome?_arrive, List.findSome?_singleton, Option.or_none]

end Program

variable {r : Regex} {t : Text} {start stop : Nat}

/-- What is found inside a part of the text is the first of all matches that ends there. -/
theorem eagerFrom?_eq_find? (r : Regex) (h : start ≤ stop) (hstop : stop ≤ t.size) :
    r.eagerFrom? t stop start = (r.finishes t start).find? (·.stop ≤ stop) := by
  rw [eagerFrom?, Program.runFrom_eager_eq h, ← List.head?_filter, r.filter_finishes t h hstop]
  cases (r.program.finishesFrom t (stop - start) start ⟨r.program.start, []⟩).head? <;> rfl

theorem find?_ends_eq (r : Regex) (t : Text) (start : Nat) (q : Nat → Bool) :
    (r.ends t start).find? q = ((r.finishes t start).find? (q ·.stop)).map (·.stop) := by
  rw [← map_stop_finishes, List.find?_map]
  rfl

/-- The first match that ends by `stop` is the first that ends where it does or earlier. -/
theorem find?_finishes_stop {f : Finish} (h : (r.finishes t start).find? (·.stop ≤ stop) = some f) :
    (r.finishes t start).find? (·.stop ≤ f.stop) = some f := by
  obtain ⟨hf, front, back, hfinishes, hfront⟩ := List.find?_eq_some_iff_append.mp h
  have hle : f.stop ≤ stop := of_decide_eq_true hf
  refine List.find?_eq_some_iff_append.mpr ⟨by simp, front, back, hfinishes, fun f' hf' => ?_⟩
  have hgt := hfront f' hf'
  simp only [Bool.not_eq_eq_eq_not, Bool.not_true, decide_eq_false_iff_not] at hgt ⊢
  omega

/-- A late search tells where the match ends, and one inside that part finds the same match. -/
theorem finishFrom?_eq_find? (r : Regex) (h : start ≤ stop) (hstop : stop ≤ t.size) :
    r.finishFrom? t stop start = (r.finishes t start).find? (·.stop ≤ stop) := by
  have hlate := r.runFrom_stop?_eq (t := t) .late h hstop
  rw [find?_ends_eq] at hlate
  rw [finishFrom?]
  cases hrun : r.program.runFrom .late ⟨t, stop⟩ start with
  | gaveUp => exact r.eagerFrom?_eq_find? h hstop
  | failed =>
    rw [hrun] at hlate
    exact (Option.map_eq_none_iff.mp (hlate nofun).symm).symm
  | matched f =>
    rw [hrun] at hlate
    obtain ⟨f', hf', heq⟩ := Option.map_eq_some_iff.mp (hlate nofun).symm
    have hbounds := finishes_bounds (List.mem_of_find?_eq_some hf') (by omega)
    dsimp only
    rw [← heq, r.eagerFrom?_eq_find? hbounds.1 hbounds.2, find?_finishes_stop hf', hf']

end Tinct.Regex
