import Mathlib.Data.List.Basic
import Tinct.Regex.Basic

/-!
# Backtracking

What a search finds that takes one way through a program after another, the preferred one first, and
goes back where a way leads nowhere. A way does not come to a node twice without reading in between:

* `Program.visits`: the nodes that such a search comes to before it reads a character, in order of
  preference;
* `Program.endsFrom`: the ends of all matches from a node, in order of preference;
* `Regex.ends`: the ends of all matches from a position;
* `Program.ways`, `Program.finishesFrom`, `Regex.finishes`: the same with what is recorded on the
  way;
* `Program.finishesFrom_filter`: a match of a shorter part of a text is a match that ends early
  enough.
-/

namespace Tinct.Regex

/-- The nodes to go on with before a character is read, where `passes` tells which assertions let a
way through. -/
def Node.moves (passes : Look → Bool) : Node → List Nat
  | .accept | .read _ _ => []
  | .look l next => if passes l then [next] else []
  | .fork nexts => nexts
  | .save _ next => [next]

theorem Node.length_moves_le (passes : Look → Bool) (n : Node) :
    (n.moves passes).length ≤ n.nexts.length := by
  cases n with
  | look l next =>
    rw [moves]
    split
    · exact Nat.le_refl 1
    · exact Nat.zero_le 1
  | accept => exact Nat.le_refl 0
  | read s next => exact Nat.zero_le 1
  | fork nexts => exact Nat.le_refl _
  | save slot next => exact Nat.le_refl 1

namespace Program

/-- The moves from a node, given by its number. -/
def moves (p : Program) (passes : Look → Bool) (n : Nat) : List Nat :=
  (p.nodes[n]?).elim [] (·.moves passes)

/-- What a search comes to from the node `n` on before it reads a character, in order of preference.
Only nodes of `rest` are left to go to. -/
def visits (p : Program) (passes : Look → Bool) (rest : List Nat) (n : Nat) : List Nat :=
  if n ∈ rest then n :: (p.moves passes n).flatMap fun m => visits p passes (rest.erase n) m
  else []
termination_by rest.length
decreasing_by
  rename_i h
  rw [List.length_erase_of_mem h]
  exact Nat.sub_lt (List.length_pos_of_mem h) Nat.one_pos

/-- The ends of the matches from position `i` that accept at the node or read a character there,
`further` giving those that have read it. -/
def goOn (p : Program) (t : Text) (i : Nat) (further : Nat → List Nat) (n : Nat) : List Nat :=
  match p.nodes[n]? with
  | some .accept => [i]
  | some (.read s next) => if (t.after? i).any s.contains then further next else []
  | _ => []

/-- The ends of all matches from the node `n` at position `i` that read `left` characters at most,
in order of preference. -/
def endsFrom (p : Program) (t : Text) : Nat → Nat → Nat → List Nat
  | 0, i, n =>
    (p.visits (·.holds t i) (List.range p.nodes.size) n).flatMap (p.goOn t i fun _ => [])
  | left + 1, i, n =>
    (p.visits (·.holds t i) (List.range p.nodes.size) n).flatMap
      (p.goOn t i (p.endsFrom t left (i + 1)))

/-- The ends of the matches that have read the character at position `i`. -/
def endsBehind (p : Program) (t : Text) : Nat → Nat → Nat → List Nat
  | 0, _, _ => []
  | left + 1, i, n => p.endsFrom t left (i + 1) n

theorem endsFrom_eq (p : Program) (t : Text) (left i n : Nat) :
    p.endsFrom t left i n = (p.visits (·.holds t i) (List.range p.nodes.size) n).flatMap
      (p.goOn t i (p.endsBehind t left i)) := by
  cases left <;> rfl

end Program

/-- The ends of all matches from position `start` of `t`, in order of preference. -/
def ends (r : Regex) (t : Text) (start : Nat) : List Nat :=
  r.program.endsFrom t (t.size - start) start r.program.start

namespace Program

/-- The threads to go on with before a character is read at the position `here`. -/
def onward (p : Program) (passes : Look → Bool) (here : Nat) (th : Thread) : List Thread :=
  match p.nodes[th.node]? with
  | some (.fork nexts) => nexts.map ({ th with node := · })
  | some (.look l next) => if passes l then [{ th with node := next }] else []
  | some (.save slot next) => [⟨next, (slot, here) :: th.trail⟩]
  | _ => []

/-- What a search comes to from a thread on before it reads a character, as threads that hold what
has been recorded on the way. -/
def ways (p : Program) (passes : Look → Bool) (here : Nat) (rest : List Nat) (th : Thread) :
    List Thread :=
  if th.node ∈ rest then
    th :: (p.onward passes here th).flatMap fun th' => ways p passes here (rest.erase th.node) th'
  else []
termination_by rest.length
decreasing_by
  rename_i h
  rw [List.length_erase_of_mem h]
  exact Nat.sub_lt (List.length_pos_of_mem h) Nat.one_pos

/-- The matches from position `i` that accept at the node of a thread or read a character there. -/
def finishOn (p : Program) (t : Text) (i : Nat) (further : Thread → List Finish) (th : Thread) :
    List Finish :=
  match p.nodes[th.node]? with
  | some .accept => [⟨i, th.trail⟩]
  | some (.read s next) =>
    if (t.after? i).any s.contains then further { th with node := next } else []
  | _ => []

/-- All matches from a thread at position `i` that read `left` characters at most, in order of
preference. -/
def finishesFrom (p : Program) (t : Text) : Nat → Nat → Thread → List Finish
  | 0, i, th =>
    (p.ways (·.holds t i) i (List.range p.nodes.size) th).flatMap (p.finishOn t i fun _ => [])
  | left + 1, i, th =>
    (p.ways (·.holds t i) i (List.range p.nodes.size) th).flatMap
      (p.finishOn t i (p.finishesFrom t left (i + 1)))

/-- The matches that have read the character at position `i`. -/
def finishesBehind (p : Program) (t : Text) : Nat → Nat → Thread → List Finish
  | 0, _, _ => []
  | left + 1, i, th => p.finishesFrom t left (i + 1) th

theorem finishesFrom_eq (p : Program) (t : Text) (left i : Nat) (th : Thread) :
    p.finishesFrom t left i th =
      (p.ways (·.holds t i) i (List.range p.nodes.size) th).flatMap
        (p.finishOn t i (p.finishesBehind t left i)) := by
  cases left <;> rfl

end Program

/-- All matches from position `start` of `t`, in order of preference. -/
def finishes (r : Regex) (t : Text) (start : Nat) : List Finish :=
  r.program.finishesFrom t (t.size - start) start ⟨r.program.start, []⟩

namespace Program
variable {p : Program} {t : Text} {passes : Look → Bool}

/-! ## Without what is recorded -/

theorem map_node_onward (here : Nat) (th : Thread) :
    (p.onward passes here th).map (·.node) = p.moves passes th.node := by
  unfold onward moves
  cases p.nodes[th.node]? with
  | none => rfl
  | some node =>
    cases node with
    | fork nexts =>
      dsimp only
      rw [List.map_map]
      exact List.map_id nexts
    | look l next =>
      simp only [Option.elim_some, Node.moves]
      split <;> rfl
    | _ => rfl

theorem map_node_ways (here : Nat) (rest : List Nat) (th : Thread) :
    (p.ways passes here rest th).map (·.node) = p.visits passes rest th.node := by
  induction rest, th using ways.induct with
  | case1 rest th h ih =>
    rw [ways, visits, if_pos h, if_pos h, List.map_cons, List.map_flatMap,
      ← map_node_onward here, List.flatMap_map]
    exact congrArg _ (List.flatMap_congr fun th' _ => ih th')
  | case2 rest th h => rw [ways, visits, if_neg h, if_neg h, List.map_nil]

theorem map_stop_finishOn {i : Nat} {further : Thread → List Finish} {further' : Nat → List Nat}
    (h : ∀ th, (further th).map (·.stop) = further' th.node) (th : Thread) :
    (p.finishOn t i further th).map (·.stop) = p.goOn t i further' th.node := by
  unfold finishOn goOn
  split
  · rfl
  · split
    · exact h _
    · rfl
  · rfl

/-- The matches end where a search comes to an end. -/
theorem map_stop_finishesFrom (p : Program) (t : Text) (left i : Nat) (th : Thread) :
    (p.finishesFrom t left i th).map (·.stop) = p.endsFrom t left i th.node := by
  induction left generalizing i th with
  | zero =>
    rw [finishesFrom, endsFrom, List.map_flatMap, ← map_node_ways i, List.flatMap_map]
    exact List.flatMap_congr fun th' _ => map_stop_finishOn (fun _ => rfl) th'
  | succ left ih =>
    rw [finishesFrom, endsFrom, List.map_flatMap, ← map_node_ways i, List.flatMap_map]
    exact List.flatMap_congr fun th' _ => map_stop_finishOn (fun th => ih (i + 1) th) th'

/-! ## Where matches end -/

theorem mem_finishOn {i : Nat} {th : Thread} {f : Finish} {further : Thread → List Finish}
    (h : f ∈ p.finishOn t i further th) : f.stop = i ∨ ∃ th', f ∈ further th' := by
  unfold finishOn at h
  split at h
  · exact .inl (List.mem_singleton.mp h ▸ rfl)
  · split at h
    · exact .inr ⟨_, h⟩
    · cases h
  · cases h

theorem finishesFrom_bounds {left i : Nat} {th : Thread} {f : Finish}
    (h : f ∈ p.finishesFrom t left i th) : i ≤ f.stop ∧ f.stop ≤ i + left := by
  induction left generalizing i th with
  | zero =>
    obtain ⟨m, -, hm⟩ := List.mem_flatMap.mp h
    obtain rfl | ⟨next, hnext⟩ := mem_finishOn hm
    · omega
    · cases hnext
  | succ left ih =>
    obtain ⟨m, -, hm⟩ := List.mem_flatMap.mp h
    obtain rfl | ⟨next, hnext⟩ := mem_finishOn hm
    · omega
    · have := ih hnext
      omega

theorem filter_finishOn {i j : Nat} {th : Thread} {further : Thread → List Finish} (hij : i ≤ j) :
    (p.finishOn t i further th).filter (·.stop ≤ j) =
      p.finishOn t i (fun th' => (further th').filter (·.stop ≤ j)) th := by
  unfold finishOn
  split
  · simp [hij]
  · split <;> rfl
  · rfl

/-- The matches that read fewer characters are those that end in front of the others. -/
theorem finishesFrom_filter (p : Program) (t : Text) (left more i : Nat) (th : Thread) :
    (p.finishesFrom t (left + more) i th).filter (·.stop ≤ i + left) =
      p.finishesFrom t left i th := by
  induction left generalizing i th with
  | zero =>
    cases more with
    | zero =>
      exact List.filter_eq_self.mpr fun f hf => by simpa using (finishesFrom_bounds hf).2
    | succ more =>
      have hfurther : (fun th' => (p.finishesFrom t more (i + 1) th').filter (·.stop ≤ i + 0)) =
          fun _ => [] := by
        funext th'
        refine List.filter_eq_nil_iff.mpr fun f hf => ?_
        have := (finishesFrom_bounds hf).1
        simp
        omega
      rw [Nat.zero_add, finishesFrom, finishesFrom, List.filter_flatMap]
      simp only [filter_finishOn (Nat.le_add_right i 0), hfurther]
  | succ left ih =>
    have hfurther :
        (fun th' => (p.finishesFrom t (left + more) (i + 1) th').filter (·.stop ≤ i + (left + 1))) =
          p.finishesFrom t left (i + 1) := by
      funext th'
      rw [show i + (left + 1) = i + 1 + left by omega]
      exact ih (i + 1) th'
    rw [Nat.add_right_comm, finishesFrom, finishesFrom, List.filter_flatMap]
    simp only [filter_finishOn (Nat.le_add_right i (left + 1)), hfurther]

end Program

section
variable {r : Regex} {t : Text} {start stop : Nat}

theorem map_stop_finishes (r : Regex) (t : Text) (start : Nat) :
    (r.finishes t start).map (·.stop) = r.ends t start :=
  r.program.map_stop_finishesFrom t _ start _

theorem finishes_bounds {f : Finish} (h : f ∈ r.finishes t start) (hs : start ≤ t.size) :
    start ≤ f.stop ∧ f.stop ≤ t.size := by
  have := Program.finishesFrom_bounds h
  omega

theorem ends_bounds {e : Nat} (h : e ∈ r.ends t start) (hs : start ≤ t.size) :
    start ≤ e ∧ e ≤ t.size := by
  rw [← map_stop_finishes] at h
  obtain ⟨f, hf, rfl⟩ := List.mem_map.mp h
  exact finishes_bounds hf hs

/-- The matches that end at `stop` at the latest. -/
theorem filter_finishes (r : Regex) (t : Text) (h : start ≤ stop) (hstop : stop ≤ t.size) :
    (r.finishes t start).filter (·.stop ≤ stop) =
      r.program.finishesFrom t (stop - start) start ⟨r.program.start, []⟩ := by
  have hfilter := r.program.finishesFrom_filter t (stop - start) (t.size - stop) start
    ⟨r.program.start, []⟩
  rwa [show stop - start + (t.size - stop) = t.size - start by omega,
    show start + (stop - start) = stop by omega] at hfilter

theorem filter_ends (r : Regex) (t : Text) (h : start ≤ stop) (hstop : stop ≤ t.size) :
    (r.ends t start).filter (· ≤ stop) =
      r.program.endsFrom t (stop - start) start r.program.start := by
  have hfrom := r.program.map_stop_finishesFrom t (stop - start) start ⟨r.program.start, []⟩
  rw [← r.filter_finishes t h hstop] at hfrom
  rw [← map_stop_finishes, List.filter_map, ← hfrom]
  rfl

end

end Tinct.Regex
