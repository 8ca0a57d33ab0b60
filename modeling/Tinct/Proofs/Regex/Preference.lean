import Tinct.Proofs.Regex.Timing

/-!
# Preferred matches

A search that does not give up ends where the first match of a backtracking search ends, whenever it
asks assertions:

* `Program.runFrom_stop?`: the end of a run is the first end inside the window;
* `Regex.endFrom?_eq`, `Regex.eagerFrom?_eq`: so it is for a regular expression;
* `Regex.find?_eq_firstFrom`: a search from a position on takes the first position at which there
  is a match, and the preferred one there.
-/

namespace Tinct.Regex

namespace Program
variable {p : Program} {t : Text}

/-- Where the match ends that a run has found. -/
def Outcome.stop? : Outcome → Option Nat
  | .matched f => some f.stop
  | .failed | .gaveUp => none

/-! ## One character -/

/-- The first end of a match that accepts at a node or reads a character there. -/
def firstEnd (p : Program) (t : Text) (left i n : Nat) : Option Nat :=
  (p.goOn t i (p.endsBehind t left i) n).head?

theorem firstEnd_hitsStays (p : Program) (t : Text) (left i : Nat) :
    p.HitsStays (p.firstEnd t left i) := by
  intro n hn
  unfold stays at hn
  unfold firstEnd goOn
  cases hnode : p.nodes[n]? with
  | none => rfl
  | some node => cases node <;> first | rfl | (rw [hnode] at hn; cases hn)

theorem head?_endsFrom (p : Program) (t : Text) (left i n : Nat) :
    (p.endsFrom t left i n).head? = p.found (·.holds t i) (p.firstEnd t left i) n := by
  rw [endsFrom_eq, List.head?_flatMap]
  rfl

/-- The first match that accepts at the node of a thread or reads a character there. -/
def firstFinish (p : Program) (t : Text) (left i : Nat) (th : Thread) : Option Finish :=
  (p.finishOn t i (p.finishesBehind t left i) th).head?

theorem map_stop_finishesBehind (p : Program) (t : Text) (left i : Nat) (th : Thread) :
    (p.finishesBehind t left i th).map (·.stop) = p.endsBehind t left i th.node := by
  cases left with
  | zero => rfl
  | succ left => exact p.map_stop_finishesFrom t left (i + 1) th

theorem map_stop_firstFinish (p : Program) (t : Text) (left i : Nat) (th : Thread) :
    (p.firstFinish t left i th).map (·.stop) = p.firstEnd t left i th.node := by
  rw [firstFinish, firstEnd, ← List.head?_map,
    map_stop_finishOn (p.map_stop_finishesBehind t left i)]

/-- A character is read: the threads that get past it hold the matches that read it, and the one
that accepts in front of it is preferred to all threads behind. -/
theorem findSome?_firstFinish_step {left i : Nat} {c? : Option Char}
    (hc : c? = if 0 < left then t.after? i else none) (threads : List Thread) :
    threads.findSome? (p.firstFinish t left i) =
      ((p.step c? threads).1.findSome? fun th => (p.finishesBehind t left i th).head?).or
        ((p.step c? threads).2.map fun th => ⟨i, th.trail⟩) := by
  induction threads with
  | nil => rfl
  | cons th threads ih =>
    rw [List.findSome?_cons, step, firstFinish, finishOn]
    cases hnode : p.nodes[th.node]? with
    | none => exact ih
    | some node =>
      cases node with
      | accept => rfl
      | fork nexts => exact ih
      | look l next => exact ih
      | save slot next => exact ih
      | read s next =>
        dsimp only
        cases left with
        | zero =>
          -- no character is left to be read
          rw [if_neg (Nat.lt_irrefl 0)] at hc
          subst hc
          have hnone : (if (t.after? i).any s.contains then
              p.finishesBehind t 0 i { th with node := next } else []) = [] :=
            ite_self _
          rw [hnone]
          exact ih
        | succ left =>
          rw [if_pos (Nat.succ_pos left)] at hc
          subst hc
          by_cases hany : (t.after? i).any s.contains = true
          · rw [if_pos hany, if_pos hany, ih, List.findSome?_cons]
            cases (p.finishesBehind t (left + 1) i { th with node := next }).head? <;> rfl
          · rw [if_neg hany, if_neg hany]
            exact ih

/-- The same for where these matches end. -/
theorem findSome?_step {left i : Nat} {c? : Option Char}
    (hc : c? = if 0 < left then t.after? i else none) (threads : List Thread) :
    threads.findSome? (fun th => p.firstEnd t left i th.node) =
      ((p.step c? threads).1.findSome? fun th => (p.endsBehind t left i th.node).head?).or
        ((p.step c? threads).2.map fun _ => i) := by
  have hfinish := congrArg (·.map (·.stop)) (@findSome?_firstFinish_step p t left i c? hc threads)
  simp only [List.map_findSome?, Option.map_or, Option.map_map, Function.comp_def,
    map_stop_firstFinish, ← List.head?_map, map_stop_finishesBehind] at hfinish
  exact hfinish

/-! ## The whole run -/

theorem settle_nil (timing : Timing) (i : Nat) : p.settle timing t i [] = [] := by
  rw [settle]
  split
  · rfl
  · rfl

theorem findSome?_found_firstEnd {i stop : Nat} (h : i < stop) (threads : List Thread) :
    (threads.findSome? fun th =>
      p.found (·.holds t (i + 1)) (p.firstEnd t (stop - (i + 1)) (i + 1)) th.node) =
      threads.findSome? fun th => (p.endsBehind t (stop - i) i th.node).head? := by
  have hleft : stop - i = stop - (i + 1) + 1 := by omega
  simp only [hleft, endsBehind, head?_endsFrom]

theorem findSome?_endsBehind_zero (i : Nat) (threads : List Thread) :
    (threads.findSome? fun th => (p.endsBehind t 0 i th.node).head?) = none :=
  List.findSome?_eq_none_iff.mpr fun _ _ => rfl

/-- A run that does not give up ends where the first match ends that goes on from its threads, or
where the best match so far does. -/
theorem run_stop? {timing : Timing} {w : Window} {fuel i : Nat}
    {threads : List Thread} {best? : Option Finish} {fresh : Bool} (hi : i ≤ w.stop)
    (hfuel : fuel + i = w.stop + 1) (hrun : p.run timing w fuel i threads best? fresh ≠ .gaveUp) :
    (p.run timing w fuel i threads best? fresh).stop? =
      ((p.settle timing w.text i threads).findSome? fun th =>
        p.firstEnd w.text (w.stop - i) i th.node).or (best?.map (·.stop)) := by
  have hended (best? : Option Finish) : (run.ended best?).stop? = best?.map (·.stop) := by
    cases best? <;> rfl
  have hbest (accepted? : Option Thread) (best? : Option Finish) (i : Nat) :
      ((accepted?.map fun th => Finish.mk i th.trail).or best?).map (·.stop) =
        (accepted?.map fun _ => i).or (best?.map (·.stop)) := by
    cases accepted? <;> rfl
  have hc (i : Nat) : (if i < w.stop then w.text.after? i else none) =
      if 0 < w.stop - i then w.text.after? i else none := by
    simp only [Nat.sub_pos_iff_lt]
  fun_induction run p timing w fuel i threads best? fresh with
  | case1 => omega
  | case2 fuel i threads best? fresh hempty =>
    rw [Bool.and_eq_true, List.isEmpty_iff] at hempty
    rw [hended, hempty.1, settle_nil, List.findSome?_nil, Option.none_or]
  | case3 fuel i threads best? fresh c? _ hstops => exact absurd rfl hrun
  | case4 fuel i threads best? fresh c? _ _ inside here live accepted? hstep best hin ih =>
    have hfirst := findSome?_step (p := p) (hc i) here
    rw [hstep, ← findSome?_found_firstEnd hin] at hfirst
    rw [ih hin (by omega) hrun, findSome?_settle (firstEnd_hitsStays p w.text _ _), hfirst,
      hbest, Option.or_assoc]
  | case5 fuel i threads best? fresh c? _ _ inside here live accepted? hstep best hin =>
    have hfirst := findSome?_step (p := p) (hc i) here
    have hleft : w.stop - i = 0 := Nat.sub_eq_zero_of_le (Nat.le_of_not_lt hin)
    rw [hstep, hleft, findSome?_endsBehind_zero, Option.none_or] at hfirst
    rw [hended, hbest, hleft, hfirst]

/-- A run from a position ends where the first match of a backtracking search ends that ends inside
the window. -/
theorem runFrom_stop? {timing : Timing} {w : Window} {start : Nat} (hstart : start ≤ w.stop)
    (hrun : p.runFrom timing w start ≠ .gaveUp) :
    (p.runFrom timing w start).stop? =
      (p.endsFrom w.text (w.stop - start) start p.start).head? := by
  unfold runFrom at hrun ⊢
  by_cases hstops : p.stops timing (w.text.before? start) = true
  · rw [if_pos hstops] at hrun
    exact absurd rfl hrun
  · rw [if_neg hstops] at hrun ⊢
    rw [run_stop? hstart (by omega) hrun,
      findSome?_settle (firstEnd_hitsStays p w.text (w.stop - start) start),
      List.findSome?_singleton, ← head?_endsFrom, Option.map_none, Option.or_none]

theorem run_eager_ne_gaveUp {w : Window} {fuel i : Nat} {threads : List Thread}
    {best? : Option Finish} {fresh : Bool} :
    p.run .eager w fuel i threads best? fresh ≠ .gaveUp := by
  have hended (best? : Option Finish) : run.ended best? ≠ .gaveUp := by
    cases best? <;> exact nofun
  fun_induction run p .eager w fuel i threads best? fresh with
  | case1 => exact hended _
  | case2 => exact hended _
  | case3 fuel i threads best? fresh c? _ hstops => exact absurd hstops Bool.false_ne_true
  | case4 fuel i threads best? fresh c? _ _ inside here live accepted? _ best hin ih => exact ih
  | case5 => exact hended _

theorem runFrom_eager_ne_gaveUp (p : Program) (w : Window) (start : Nat) :
    p.runFrom .eager w start ≠ .gaveUp := by
  rw [runFrom, if_neg (show p.stops .eager _ ≠ true from Bool.false_ne_true)]
  exact run_eager_ne_gaveUp

end Program

/-! ## Regular expressions -/

variable {t : Text}

theorem runFrom_stop?_eq (r : Regex) (timing : Timing) {start stop : Nat} (h : start ≤ stop)
    (hstop : stop ≤ t.size) (hrun : r.program.runFrom timing ⟨t, stop⟩ start ≠ .gaveUp) :
    (r.program.runFrom timing ⟨t, stop⟩ start).stop? = (r.ends t start).find? (· ≤ stop) := by
  rw [Program.runFrom_stop? h hrun, ← r.filter_ends t h hstop, List.head?_filter]

/-- The preferred match from `start` that ends at `stop` at the latest. -/
theorem eagerFrom?_eq (r : Regex) {start stop : Nat} (h : start ≤ stop) (hstop : stop ≤ t.size) :
    (r.eagerFrom? t stop start).map (·.stop) = (r.ends t start).find? (· ≤ stop) := by
  have hrun := r.program.runFrom_eager_ne_gaveUp ⟨t, stop⟩ start
  rw [← r.runFrom_stop?_eq .eager h hstop hrun, eagerFrom?]
  cases r.program.runFrom .eager ⟨t, stop⟩ start <;> rfl

/-- The late search tells what the eager one tells, where it tells anything. -/
theorem endFrom?_eq (r : Regex) {start stop : Nat} (h : start ≤ stop) (hstop : stop ≤ t.size) :
    r.endFrom? t stop start = (r.ends t start).find? (· ≤ stop) := by
  have hlate := r.runFrom_stop?_eq (t := t) .late h hstop
  rw [endFrom?]
  cases hrun : r.program.runFrom .late ⟨t, stop⟩ start with
  | gaveUp => exact r.eagerFrom?_eq h hstop
  | failed =>
    rw [hrun] at hlate
    exact hlate nofun
  | matched f =>
    rw [hrun] at hlate
    exact hlate nofun

/-- All matches end inside the text. -/
theorem find?_ends_le_size {r : Regex} {start : Nat} (h : start ≤ t.size) :
    (r.ends t start).find? (· ≤ t.size) = (r.ends t start).head? := by
  rw [← List.head?_filter]
  exact congrArg _ (List.filter_eq_self.mpr fun e he => decide_eq_true (ends_bounds he h).2)

/-! ## Searching from a position on -/

theorem firstFrom_congr {α : Type} {f g : Nat → Option α} {n i : Nat}
    (h : ∀ k, i ≤ k → k < i + n → f k = g k) : firstFrom f n i = firstFrom g n i := by
  induction n generalizing i with
  | zero => rfl
  | succ n ih =>
    have hrest : firstFrom f n (i + 1) = firstFrom g n (i + 1) :=
      ih fun k hk hn => h k (by omega) (by omega)
    rw [firstFrom, firstFrom, h i (Nat.le_refl i) (by omega), hrest]

theorem firstFrom_map {α β : Type} (f : Nat → Option α) (h : α → β) (n i : Nat) :
    firstFrom (fun k => (f k).map h) n i = (firstFrom f n i).map fun (k, a) => (k, h a) := by
  induction n generalizing i with
  | zero => rfl
  | succ n ih =>
    unfold firstFrom
    cases f i with
    | none => exact ih (i + 1)
    | some a => rfl

/-- The end of the preferred match from a position as the late search tells it, if it can tell. -/
def lateEnd? (r : Regex) (t : Text) (i : Nat) : Option (Option Nat) :=
  match r.program.runFrom .late ⟨t, t.size⟩ i with
  | .matched f => some (some f.stop)
  | .failed => none
  | .gaveUp => some none

theorem lateEnd?_eq (r : Regex) {i : Nat} (h : i ≤ t.size) :
    r.lateEnd? t i = some none ∨ r.lateEnd? t i = (r.ends t i).head?.map some := by
  have hlate := r.runFrom_stop?_eq .late h (Nat.le_refl t.size)
  rw [find?_ends_le_size h] at hlate
  rw [lateEnd?]
  cases hrun : r.program.runFrom .late ⟨t, t.size⟩ i with
  | gaveUp => exact .inl rfl
  | failed =>
    rw [hrun] at hlate
    rw [← hlate nofun]
    exact .inr rfl
  | matched f =>
    rw [hrun] at hlate
    rw [← hlate nofun]
    exact .inr rfl

theorem find?_eq (r : Regex) (t : Text) (i : Nat) :
    r.find? t i =
      match firstFrom (r.lateEnd? t) (t.size + 1 - i) i with
      | none => none
      | some (k, some stop) => some ⟨k, stop⟩
      | some (_, none) =>
        (firstFrom (r.eagerFrom? t t.size) (t.size + 1 - i) i).map fun (k, f) => ⟨k, f.stop⟩ := rfl

/-- A search that may give up at some positions gives up, or finds what one finds that does not. -/
theorem firstFrom_of_gives_up {late : Nat → Option (Option Nat)} {f : Nat → Option Nat} {n i : Nat}
    (h : ∀ k, i ≤ k → k < i + n → late k = some none ∨ late k = (f k).map some) :
    (∃ k, firstFrom late n i = some (k, none)) ∨
      firstFrom late n i = (firstFrom f n i).map fun (k, e) => (k, some e) := by
  induction n generalizing i with
  | zero => exact .inr rfl
  | succ n ih =>
    rw [firstFrom, firstFrom]
    rcases h i (Nat.le_refl i) (by omega) with hgave | hlate
    · exact .inl ⟨i, by rw [hgave]⟩
    · rw [hlate]
      cases f i with
      | some e => exact .inr rfl
      | none => exact ih fun k hk hn => h k (by omega) (by omega)

/-- A search from a position on finds the first position from which there is a match, and takes the
preferred one there. -/
theorem find?_eq_firstFrom (r : Regex) (t : Text) (i : Nat) :
    r.find? t i = (firstFrom (fun k => (r.ends t k).head?) (t.size + 1 - i) i).map
      fun (k, stop) => ⟨k, stop⟩ := by
  have hinside {k : Nat} (hk : k < i + (t.size + 1 - i)) (hik : i ≤ k) : k ≤ t.size := by omega
  rw [find?_eq]
  rcases firstFrom_of_gives_up fun k hik hk => r.lateEnd?_eq (hinside hk hik) with
    ⟨k, hgave⟩ | hlate
  · have heager : firstFrom (fun k => (r.ends t k).head?) (t.size + 1 - i) i =
        firstFrom (fun k => (r.eagerFrom? t t.size k).map (·.stop)) (t.size + 1 - i) i :=
      firstFrom_congr fun k hik hk => by
        rw [r.eagerFrom?_eq (hinside hk hik) (Nat.le_refl _), find?_ends_le_size (hinside hk hik)]
    rw [hgave, heager, firstFrom_map, Option.map_map]
    rfl
  · rw [hlate]
    cases firstFrom (fun k => (r.ends t k).head?) (t.size + 1 - i) i <;> rfl

end Tinct.Regex
