import Mathlib.Logic.Relation
import Tinct.Proofs.Regex.Lockstep
import Tinct.Proofs.Regex.Spelling

/-!
# What programs accept

The program of an expression accepts what the expression stands for:

* `Program.AcceptsIn`: the ways through a program to a node that accepts;
* `Program.mem_endsFrom`: backtracking finds an end for each of them;
* `Lays`: a layout whose nodes lead from its first ones to what follows wherever some relation
  between positions holds;
* `Expr.lays`: an expression is laid out so for what it stands for;
* `mem_ends_ofExpr`: the matches of a regular expression are what its expression stands for.
-/

namespace Tinct.Regex

namespace Program
variable {p : Program} {t : Text} {stop k n i : Nat}

/-- From a node at a position, `k` moves lead to a node that accepts at `stop`. -/
inductive AcceptsIn (p : Program) (t : Text) (stop : Nat) : Nat → Nat → Nat → Prop
  | accept {n : Nat} (h : p.nodes[n]? = some .accept) : AcceptsIn p t stop 0 n stop
  | read {k n i next : Nat} {s : CharSet} (h : p.nodes[n]? = some (.read s next))
    (hc : (t.after? i).any s.contains = true) (hnext : AcceptsIn p t stop k next (i + 1)) :
    AcceptsIn p t stop (k + 1) n i
  | move {k n i m : Nat} (h : m ∈ p.moves (·.holds t i) n) (hm : AcceptsIn p t stop k m i) :
    AcceptsIn p t stop (k + 1) n i

/-- From a node at a position, some way leads to a node that accepts at `stop`. -/
def Accepts (p : Program) (t : Text) (stop n i : Nat) : Prop := ∃ k, p.AcceptsIn t stop k n i

theorem Accepts.move {m : Nat} (h : m ∈ p.moves (·.holds t i) n) (hm : p.Accepts t stop m i) :
    p.Accepts t stop n i := by
  obtain ⟨k, hm⟩ := hm
  exact ⟨k + 1, .move h hm⟩

theorem Accepts.read {s : CharSet} {next : Nat} (h : p.nodes[n]? = some (.read s next))
    (hc : (t.after? i).any s.contains = true) (hnext : p.Accepts t stop next (i + 1)) :
    p.Accepts t stop n i := by
  obtain ⟨k, hnext⟩ := hnext
  exact ⟨k + 1, .read h hc hnext⟩

theorem AcceptsIn.lt_size (h : p.AcceptsIn t stop k n i) : n < p.nodes.size := by
  cases h with
  | accept h => exact (Array.getElem?_eq_some_iff.mp h).1
  | read h _ _ => exact (Array.getElem?_eq_some_iff.mp h).1
  | move h _ =>
    refine Nat.lt_of_not_le fun hle => ?_
    rw [moves_of_size_le hle] at h
    cases h

theorem AcceptsIn.le_stop (h : p.AcceptsIn t stop k n i) : i ≤ stop := by
  induction h with
  | accept _ => exact Nat.le_refl stop
  | read _ _ _ ih => omega
  | move _ _ ih => exact ih

/-! ## Ways without detours -/

/-- A way that comes back to its start can leave from there at once. -/
theorem eq_or_exists_avoiding {α : Type} {R : α → α → Prop} {a b : α}
    (h : Relation.ReflTransGen R a b) :
    a = b ∨ ∃ c, R a c ∧ c ≠ a ∧ Relation.ReflTransGen (fun x y => R x y ∧ y ≠ a) c b := by
  induction h with
  | refl => exact .inl rfl
  | @tail x y _ hxy ih =>
    by_cases hy : y = a
    · exact .inl hy.symm
    · obtain rfl | ⟨c, hac, hne, hcx⟩ := ih
      · exact .inr ⟨y, hxy, hy, .refl⟩
      · exact .inr ⟨c, hac, hne, hcx.tail ⟨hxy, hy⟩⟩

/-- A search comes to every node that a way leads to. -/
theorem mem_visits_of_path {passes : Look → Bool} {rest : List Nat} {m : Nat} (hn : n ∈ rest)
    (h : Relation.ReflTransGen (fun a b => b ∈ p.moves passes a ∧ b ∈ rest) n m) :
    m ∈ p.visits passes rest n := by
  induction rest, n using visits.induct with
  | case1 rest n hmem ih =>
    rw [visits, if_pos hmem]
    obtain rfl | ⟨c, ⟨hmoves, hc⟩, hne, hpath⟩ := eq_or_exists_avoiding h
    · exact .head _
    · refine .tail _ (List.mem_flatMap.mpr ⟨c, hmoves, ih c ?_ ?_⟩)
      · exact (List.mem_erase_of_ne hne).mpr hc
      · refine hpath.lift id fun a b h => ⟨h.1.1, ?_⟩
        exact (List.mem_erase_of_ne h.2).mpr h.1.2
  | case2 rest n hnot => exact absurd hn hnot

theorem accepts_of_mem_visits {rest : List Nat} {m : Nat}
    (h : m ∈ p.visits (·.holds t i) rest n) (hm : p.Accepts t stop m i) :
    p.Accepts t stop n i := by
  induction rest, n using visits.induct with
  | case1 rest n hmem ih =>
    rw [visits, if_pos hmem] at h
    obtain rfl | h := List.mem_cons.mp h
    · exact hm
    · obtain ⟨c, hc, h⟩ := List.mem_flatMap.mp h
      exact .move hc (ih c h)
  | case2 rest n hnot =>
    rw [visits, if_neg hnot] at h
    cases h

/-- What accepts comes to a node that accepts or reads a character, with no move in between that
does either. -/
theorem AcceptsIn.exists_path (h : p.AcceptsIn t stop k n i) :
    ∃ m, Relation.ReflTransGen
        (fun a b => b ∈ p.moves (·.holds t i) a ∧ b ∈ List.range p.nodes.size) n m ∧
      (p.nodes[m]? = some .accept ∧ i = stop ∨ ∃ s next, p.nodes[m]? = some (.read s next) ∧
        (t.after? i).any s.contains = true ∧ p.Accepts t stop next (i + 1)) := by
  induction h with
  | accept h => exact ⟨_, .refl, .inl ⟨h, rfl⟩⟩
  | @read k _ _ next s h hc hnext _ => exact ⟨_, .refl, .inr ⟨s, next, h, hc, k, hnext⟩⟩
  | move h hm ih =>
    obtain ⟨m, hpath, hend⟩ := ih
    exact ⟨m, .head ⟨h, List.mem_range.mpr hm.lt_size⟩ hpath, hend⟩

theorem mem_goOn {further : Nat → List Nat} : stop ∈ p.goOn t i further n ↔
    p.nodes[n]? = some .accept ∧ stop = i ∨ ∃ s next, p.nodes[n]? = some (.read s next) ∧
      (t.after? i).any s.contains = true ∧ stop ∈ further next := by
  unfold goOn
  split
  · rename_i h
    simp [h]
  · rename_i s next h
    rw [h]
    split
    · rename_i hc
      constructor
      · exact fun hstop => .inr ⟨s, next, rfl, hc, hstop⟩
      · rintro (⟨h', -⟩ | ⟨s', next', h', -, hstop⟩)
        · cases h'
        · cases h'
          exact hstop
    · rename_i hc
      refine ⟨nofun, ?_⟩
      rintro (⟨h', -⟩ | ⟨s', next', h', hc', -⟩)
      · cases h'
      · cases h'
        exact absurd hc' hc
  · rename_i haccept hread
    refine ⟨nofun, ?_⟩
    rintro (⟨h', -⟩ | ⟨s', next', h', -, -⟩)
    · exact absurd h' haccept
    · exact absurd h' (hread s' next')

/-- Backtracking finds an end for every way through a program that reads few enough characters. -/
theorem mem_endsFrom {left : Nat} :
    stop ∈ p.endsFrom t left i n ↔ stop ≤ i + left ∧ p.Accepts t stop n i := by
  induction left generalizing i n with
  | zero =>
    rw [endsFrom, List.mem_flatMap]
    simp only [mem_goOn]
    constructor
    · rintro ⟨m, hm, ⟨haccept, rfl⟩ | ⟨s, next, -, -, hnone⟩⟩
      · exact ⟨Nat.le_refl _, accepts_of_mem_visits hm ⟨0, .accept haccept⟩⟩
      · cases hnone
    · rintro ⟨hstop, k, haccepts⟩
      obtain ⟨m, hpath, ⟨haccept, rfl⟩ | ⟨s, next, -, -, k', hnext⟩⟩ := haccepts.exists_path
      · have hmem := mem_visits_of_path (List.mem_range.mpr haccepts.lt_size) hpath
        exact ⟨m, hmem, .inl ⟨haccept, rfl⟩⟩
      · have := hnext.le_stop
        omega
  | succ left ih =>
    rw [endsFrom, List.mem_flatMap]
    simp only [mem_goOn, ih]
    constructor
    · rintro ⟨m, hm, ⟨haccept, rfl⟩ | ⟨s, next, hread, hc, hstop, hnext⟩⟩
      · exact ⟨Nat.le_add_right _ _, accepts_of_mem_visits hm ⟨0, .accept haccept⟩⟩
      · exact ⟨by omega, accepts_of_mem_visits hm (.read hread hc hnext)⟩
    · rintro ⟨hstop, k, haccepts⟩
      obtain ⟨m, hpath, hend⟩ := haccepts.exists_path
      refine ⟨m, mem_visits_of_path (List.mem_range.mpr haccepts.lt_size) hpath, ?_⟩
      refine hend.imp (fun h => ⟨h.1, h.2.symm⟩) ?_
      rintro ⟨s, next, hread, hc, hnext⟩
      exact ⟨s, next, hread, hc, by omega, hnext⟩

theorem mem_moves_turn {greedy : Bool} {body next m : Nat} {passes : Look → Bool}
    (h : p.nodes[n]? = some (Layout.turn greedy body next)) :
    m ∈ p.moves passes n ↔ m = body ∨ m = next := by
  rw [moves, h]
  cases greedy <;> simp [Layout.turn, Node.moves, or_comm]

/-- A fork between a body and what follows is left for one of them. -/
theorem AcceptsIn.of_turn {greedy : Bool} {body next : Nat}
    (hturn : p.nodes[n]? = some (Layout.turn greedy body next))
    (h : p.AcceptsIn t stop k n i) :
    ∃ k' < k, p.AcceptsIn t stop k' body i ∨ p.AcceptsIn t stop k' next i := by
  cases h with
  | accept h => rw [hturn] at h; cases greedy <;> cases h
  | read h _ _ => rw [hturn] at h; cases greedy <;> cases h
  | move hm h =>
    refine ⟨_, Nat.lt_succ_self _, ?_⟩
    obtain rfl | rfl := (mem_moves_turn hturn).mp hm
    · exact .inl h
    · exact .inr h

theorem Accepts.turn {greedy : Bool} {body next : Nat}
    (hturn : p.nodes[n]? = some (Layout.turn greedy body next))
    (h : p.Accepts t stop body i ∨ p.Accepts t stop next i) : p.Accepts t stop n i := by
  obtain h | h := h
  · exact .move ((mem_moves_turn hturn).mpr (.inl rfl)) h
  · exact .move ((mem_moves_turn hturn).mpr (.inr rfl)) h

/-- From the number `start` on, the nodes of the program are those of a layout. -/
def HasFrom (p : Program) (start : Nat) (nodes : Array Node) : Prop :=
  ∀ n, start ≤ n → n < nodes.size → p.nodes[n]? = nodes[n]?

theorem HasFrom.of_push {start : Nat} {nodes : Array Node} {node : Node}
    (h : p.HasFrom start (nodes.push node)) (hstart : start ≤ nodes.size) :
    p.nodes[nodes.size]? = some node ∧ p.HasFrom start nodes := by
  have hsize : nodes.size < (nodes.push node).size := by simp
  refine ⟨?_, fun n hle hlt => ?_⟩
  · rw [h _ hstart hsize, Array.getElem?_push, if_pos rfl]
  · rw [h n hle (Nat.lt_trans hlt hsize), Array.getElem?_push, if_neg (by omega)]

/-- A program with the nodes of a layout that goes on from another has those of both. -/
theorem HasFrom.of_keeps {start : Nat} {nodes nodes' : Array Node} (h : p.HasFrom start nodes')
    (hstart : start ≤ nodes.size) (hsize : nodes.size ≤ nodes'.size)
    (hkeeps : ∀ n < nodes.size, nodes'[n]? = nodes[n]?) :
    p.HasFrom nodes.size nodes' ∧ p.HasFrom start nodes := by
  refine ⟨fun n hle hlt => h n (Nat.le_trans hstart hle) hlt, fun n hle hlt => ?_⟩
  rw [h n hle (Nat.lt_of_lt_of_le hlt hsize), hkeeps n hlt]

end Program

/-! ## Layouts -/

/-- However a layout is gone on with, its first nodes accept where the relation `R` holds up to a
position at which what follows accepts. It adds nodes behind those that are there. -/
structure Lays (t : Text) (R : Nat → Nat → Prop) (g : Layout → List Nat × Array Node) : Prop where
  size_le (l : Layout) : l.nodes.size ≤ (g l).2.size
  keeps (l : Layout) (n : Nat) (hn : n < l.nodes.size) : (g l).2[n]? = l.nodes[n]?
  sound {p : Program} {l : Layout} {stop k i n : Nat} (hp : p.HasFrom l.nodes.size (g l).2)
    (hn : n ∈ (g l).1) (h : p.AcceptsIn t stop k n i) :
    ∃ j k', R i j ∧ k' ≤ k ∧ p.AcceptsIn t stop k' l.entry j
  complete {p : Program} {l : Layout} {stop i j : Nat} (hp : p.HasFrom l.nodes.size (g l).2)
    (hR : R i j) (h : p.Accepts t stop l.entry j) : ∃ n ∈ (g l).1, p.Accepts t stop n i

namespace Lays
variable {t : Text} {R S : Nat → Nat → Prop} {g : Layout → List Nat × Array Node}
  {f : Layout → Layout}

open Expr.entries (one)

theorem congr (h : Lays t R g) (hRS : ∀ i j, R i j ↔ S i j) : Lays t S g := by
  obtain rfl : R = S := funext fun i => funext fun j => propext (hRS i j)
  exact h

theorem id : Lays t (· = ·) one where
  size_le _ := Nat.le_refl _
  keeps _ _ _ := rfl
  sound _ hn h := ⟨_, _, rfl, Nat.le_refl _, List.mem_singleton.mp hn ▸ h⟩
  complete _ hR h := ⟨_, .head _, hR ▸ h⟩

/-- A node in front leads on where it lets a way through. -/
theorem pushOnto {node : Nat → Node}
    (hsound : ∀ {p : Program} {stop k n next i : Nat}, p.nodes[n]? = some (node next) →
      p.AcceptsIn t stop k n i → ∃ j k', R i j ∧ k' ≤ k ∧ p.AcceptsIn t stop k' next j)
    (hcomplete : ∀ {p : Program} {stop n next i j : Nat}, p.nodes[n]? = some (node next) →
      R i j → p.Accepts t stop next j → p.Accepts t stop n i) :
    Lays t R fun l => one (l.pushOnto node) where
  size_le l := by
    show l.nodes.size ≤ (l.nodes.push _).size
    rw [Array.size_push]
    exact Nat.le_succ _
  keeps l n hn := by
    show (l.nodes.push _)[n]? = l.nodes[n]?
    rw [Array.getElem?_push, if_neg (by omega)]
  sound {p l _ _ _ n} hp hn h := by
    obtain ⟨hnode, -⟩ := Program.HasFrom.of_push hp (Nat.le_refl _)
    obtain rfl : n = l.nodes.size := List.mem_singleton.mp hn
    exact hsound hnode h
  complete {p l _ _ _} hp hR h := by
    obtain ⟨hnode, -⟩ := Program.HasFrom.of_push hp (Nat.le_refl _)
    exact ⟨l.nodes.size, .head _, hcomplete hnode hR h⟩

/-- One layout in front of another. -/
theorem comp (hg : Lays t R g) (hf : Lays t S fun l => one (f l)) :
    Lays t (fun i j => ∃ k, R i k ∧ S k j) fun l => g (f l) where
  size_le l := Nat.le_trans (hf.size_le l) (hg.size_le (f l))
  keeps l n hn := by
    rw [hg.keeps (f l) n (Nat.lt_of_lt_of_le hn (hf.size_le l))]
    exact hf.keeps l n hn
  sound {p l _ _ _ _} hp hn h := by
    obtain ⟨hpg, hpf⟩ := hp.of_keeps (hf.size_le l) (hg.size_le (f l)) (hg.keeps (f l))
    obtain ⟨k, k', hR, hle, h⟩ := hg.sound hpg hn h
    obtain ⟨j, k'', hS, hle', h⟩ := hf.sound hpf (.head _) h
    exact ⟨j, k'', ⟨k, hR, hS⟩, Nat.le_trans hle' hle, h⟩
  complete {p l _ _ _} hp hRS h := by
    obtain ⟨hpg, hpf⟩ := hp.of_keeps (hf.size_le l) (hg.size_le (f l)) (hg.keeps (f l))
    obtain ⟨k, hR, hS⟩ := hRS
    obtain ⟨n, hn, h⟩ := hf.complete hpf hS h
    obtain rfl : n = (f l).entry := List.mem_singleton.mp hn
    exact hg.complete hpg hR h

theorem join_cases (x : List Nat × Array Node) :
    (∃ n, x.1 = [n] ∧ Layout.join x = ⟨x.2, n⟩) ∨
      Layout.join x = ⟨x.2.push (.fork x.1), x.2.size⟩ := by
  obtain ⟨is, nodes⟩ := x
  unfold Layout.join
  split
  · rename_i n nodes' heq
    cases heq
    exact .inl ⟨n, rfl, rfl⟩
  · rename_i is' nodes' _ heq
    cases heq
    exact .inr rfl

/-- Several first nodes are brought together in one. -/
theorem join (hg : Lays t R g) : Lays t R fun l => one (Layout.join (g l)) where
  size_le l := by
    obtain ⟨n, -, hjoin⟩ | hjoin := join_cases (g l)
    · rw [hjoin]
      exact hg.size_le l
    · rw [hjoin]
      have := hg.size_le l
      show l.nodes.size ≤ ((g l).2.push _).size
      rw [Array.size_push]
      omega
  keeps l n hn := by
    have hsize := hg.size_le l
    obtain ⟨n', -, hjoin⟩ | hjoin := join_cases (g l)
    · rw [hjoin]
      exact hg.keeps l n hn
    · rw [hjoin]
      show ((g l).2.push _)[n]? = _
      rw [Array.getElem?_push, if_neg (by omega)]
      exact hg.keeps l n hn
  sound {p l _ _ _ n} hp hn h := by
    obtain ⟨n', hfirst, hjoin⟩ | hjoin := join_cases (g l)
    · rw [hjoin] at hp hn
      obtain rfl : n = n' := List.mem_singleton.mp hn
      exact hg.sound hp (hfirst ▸ .head _) h
    · rw [hjoin] at hp hn
      obtain rfl : n = (g l).2.size := List.mem_singleton.mp hn
      obtain ⟨hfork, hpg⟩ := hp.of_push (hg.size_le l)
      cases h with
      | accept h => rw [hfork] at h; cases h
      | read h _ _ => rw [hfork] at h; cases h
      | move hm h =>
        rw [Program.moves, hfork] at hm
        obtain ⟨j, k', hR, hle, h⟩ := hg.sound hpg hm h
        exact ⟨j, k', hR, Nat.le_succ_of_le hle, h⟩
  complete {p l _ _ _} hp hR h := by
    obtain ⟨n', hfirst, hjoin⟩ | hjoin := join_cases (g l)
    · rw [hjoin] at hp ⊢
      obtain ⟨n, hn, h⟩ := hg.complete hp hR h
      rw [hfirst] at hn
      exact ⟨n, hn, h⟩
    · rw [hjoin] at hp ⊢
      obtain ⟨hfork, hpg⟩ := hp.of_push (hg.size_le l)
      obtain ⟨n, hn, h⟩ := hg.complete hpg hR h
      exact ⟨_, .head _, .move (by rw [Program.moves, hfork]; exact hn) h⟩

/-- The first nodes of two layouts in front of the same. -/
theorem alt {g' : Layout → List Nat × Array Node} (hg : Lays t R g) (hg' : Lays t S g') :
    Lays t (fun i j => R i j ∨ S i j) fun l =>
      ((g l).1 ++ (g' ⟨(g l).2, l.entry⟩).1, (g' ⟨(g l).2, l.entry⟩).2) where
  size_le l := Nat.le_trans (hg.size_le l) (hg'.size_le ⟨(g l).2, l.entry⟩)
  keeps l n hn := by
    rw [hg'.keeps ⟨(g l).2, l.entry⟩ n (Nat.lt_of_lt_of_le hn (hg.size_le l))]
    exact hg.keeps l n hn
  sound {p l _ _ _ n} hp hn h := by
    obtain ⟨hp', hpg⟩ := hp.of_keeps (hg.size_le l) (hg'.size_le ⟨(g l).2, l.entry⟩)
      (hg'.keeps ⟨(g l).2, l.entry⟩)
    obtain hn | hn := List.mem_append.mp hn
    · obtain ⟨j, k', hR, hle, h⟩ := hg.sound hpg hn h
      exact ⟨j, k', .inl hR, hle, h⟩
    · obtain ⟨j, k', hS, hle, h⟩ := hg'.sound hp' hn h
      exact ⟨j, k', .inr hS, hle, h⟩
  complete {p l _ _ _} hp hRS h := by
    obtain ⟨hp', hpg⟩ := hp.of_keeps (hg.size_le l) (hg'.size_le ⟨(g l).2, l.entry⟩)
      (hg'.keeps ⟨(g l).2, l.entry⟩)
    obtain hR | hS := hRS
    · obtain ⟨n, hn, h⟩ := hg.complete hpg hR h
      exact ⟨n, List.mem_append_left _ hn, h⟩
    · obtain ⟨n, hn, h⟩ := @complete t S g' hg' p ⟨(g l).2, l.entry⟩ _ _ _ hp' hS h
      exact ⟨n, List.mem_append_right _ hn, h⟩

/-! ### Repetitions -/

/-- A number of times in a row. -/
theorem times (hf : Lays t R fun l => one (f l)) (n : Nat) :
    Lays t (Expr.Times R n) fun l => one (Layout.times f n l) := by
  induction n with
  | zero => exact id
  | succ n ih => exact (ih.comp hf).congr fun i j => Expr.times_succ_right.symm

/-- A fork between a layout and what follows it. -/
theorem turn (hf : Lays t R fun l => one (f l)) (greedy : Bool) :
    Lays t (fun i j => i = j ∨ R i j) fun l =>
      one ((f l).pushOnto (Layout.turn greedy · l.entry)) where
  size_le l := by
    have hsize : l.nodes.size ≤ (f l).nodes.size := hf.size_le l
    show l.nodes.size ≤ ((f l).nodes.push _).size
    rw [Array.size_push]
    omega
  keeps l n hn := by
    have hsize : l.nodes.size ≤ (f l).nodes.size := hf.size_le l
    show ((f l).nodes.push _)[n]? = _
    rw [Array.getElem?_push, if_neg (by omega)]
    exact hf.keeps l n hn
  sound {p l _ _ _ n} hp hn h := by
    obtain ⟨hturn, hpf⟩ := Program.HasFrom.of_push hp (hf.size_le l)
    obtain rfl : n = (f l).nodes.size := List.mem_singleton.mp hn
    obtain ⟨k', hlt, h | h⟩ := h.of_turn hturn
    · obtain ⟨j, k'', hR, hle, h⟩ := hf.sound hpf (.head _) h
      exact ⟨j, k'', .inr hR, by omega, h⟩
    · exact ⟨_, k', .inl rfl, Nat.le_of_lt hlt, h⟩
  complete {p l _ _ _} hp hR h := by
    obtain ⟨hturn, hpf⟩ := Program.HasFrom.of_push hp (hf.size_le l)
    refine ⟨_, .head _, ?_⟩
    obtain rfl | hR := hR
    · exact .turn hturn (.inr h)
    · obtain ⟨n, hn, h⟩ := hf.complete hpf hR h
      obtain rfl : n = (f l).entry := List.mem_singleton.mp hn
      exact .turn hturn (.inl h)

theorem times_succ_outside (f : Layout → Layout) (n : Nat) (l : Layout) :
    Layout.times f (n + 1) l = f (Layout.times f n l) := by
  induction n generalizing l with
  | zero => rfl
  | succ n ih => exact ih (f l)

/-- At most a number of times in a row. -/
theorem optional (hf : Lays t R fun l => one (f l)) (greedy : Bool) (n : Nat) :
    Lays t (fun i j => ∃ m ≤ n, Expr.Times R m i j) fun l =>
      one (Layout.times (Layout.option f greedy l.entry) n l) := by
  induction n with
  | zero =>
    refine id.congr fun i j => ⟨fun h => ⟨0, Nat.le_refl _, h⟩, fun ⟨m, hm, h⟩ => ?_⟩
    obtain rfl := Nat.le_zero.mp hm
    exact h
  | succ n ih =>
    simp only [times_succ_outside]
    refine ((hf.comp ih).turn greedy).congr fun i j => ⟨?_, ?_⟩
    · rintro (rfl | ⟨k, hR, m, hm, hrest⟩)
      · exact ⟨0, Nat.zero_le _, rfl⟩
      · exact ⟨m + 1, Nat.succ_le_succ hm, k, hR, hrest⟩
    · rintro ⟨m, hm, h⟩
      cases m with
      | zero => exact .inl h
      | succ m =>
        obtain ⟨k, hR, hrest⟩ := h
        exact .inr ⟨k, hR, m, Nat.le_of_succ_le_succ hm, hrest⟩

/-- The layout that the body of a loop is put in front of. -/
def loopStart (l : Layout) : Layout := ⟨l.nodes.push (.fork []), l.nodes.size⟩

theorem loop_eq (f : Layout → Layout) (greedy : Bool) (l : Layout) :
    Layout.loop f greedy l =
      (⟨(f (loopStart l)).nodes.setIfInBounds l.nodes.size
        (Layout.turn greedy (f (loopStart l)).entry l.entry), (f (loopStart l)).entry⟩,
        l.nodes.size) := rfl

theorem size_loopStart (l : Layout) : (loopStart l).nodes.size = l.nodes.size + 1 :=
  Array.size_push _

/-- A loop keeps what is there, and leads from its fork to its body or to what follows. -/
theorem loop_nodes (hf : Lays t R fun l => one (f l)) (greedy : Bool) (l : Layout) :
    l.nodes.size ≤ (Layout.loop f greedy l).1.nodes.size ∧
      (∀ n < l.nodes.size, (Layout.loop f greedy l).1.nodes[n]? = l.nodes[n]?) ∧
      ∀ {p : Program}, p.HasFrom l.nodes.size (Layout.loop f greedy l).1.nodes →
        p.nodes[l.nodes.size]? = some (Layout.turn greedy (f (loopStart l)).entry l.entry) ∧
          p.HasFrom (loopStart l).nodes.size (f (loopStart l)).nodes := by
  have hsize : (loopStart l).nodes.size ≤ (f (loopStart l)).nodes.size := hf.size_le _
  have hstart := size_loopStart l
  rw [loop_eq]
  dsimp only
  refine ⟨?_, fun n hn => ?_, fun {p} hp => ⟨?_, fun n hle hlt => ?_⟩⟩
  · rw [Array.size_setIfInBounds]
    omega
  · rw [Array.getElem?_setIfInBounds_ne (by omega)]
    rw [show (f (loopStart l)).nodes[n]? = (loopStart l).nodes[n]? from
      hf.keeps (loopStart l) n (by omega)]
    show (l.nodes.push _)[n]? = _
    rw [Array.getElem?_push, if_neg (by omega)]
  · rw [hp _ (Nat.le_refl _) (by rw [Array.size_setIfInBounds]; omega),
      Array.getElem?_setIfInBounds_self_of_lt (by omega)]
  · rw [hp n (by omega) (by rwa [Array.size_setIfInBounds]),
      Array.getElem?_setIfInBounds_ne (by omega)]

/-- From the fork of a loop the body is gone through any number of times. -/
theorem star (hf : Lays t R fun l => one (f l)) (greedy : Bool) :
    Lays t (fun i j => ∃ n, Expr.Times R n i j) fun l =>
      one ⟨(Layout.loop f greedy l).1.nodes, (Layout.loop f greedy l).2⟩ where
  size_le l := (loop_nodes hf greedy l).1
  keeps l := (loop_nodes hf greedy l).2.1
  sound {p l _ k i n} hp hn h := by
    obtain ⟨hturn, hpf⟩ := (loop_nodes hf greedy l).2.2 hp
    obtain rfl : n = l.nodes.size := List.mem_singleton.mp hn
    induction k using Nat.strongRecOn generalizing i with
    | ind k ih =>
      obtain ⟨k', hlt, h | h⟩ := h.of_turn hturn
      · -- the body comes back to the fork with fewer moves left
        obtain ⟨i', k'', hR, hle, h⟩ := hf.sound hpf (.head _) h
        obtain ⟨j, k₁, ⟨n, hrest⟩, hle', h⟩ := ih k'' (by omega) h
        exact ⟨j, k₁, ⟨n + 1, i', hR, hrest⟩, by omega, h⟩
      · exact ⟨_, k', ⟨0, rfl⟩, Nat.le_of_lt hlt, h⟩
  complete {p l _ i _} hp hR h := by
    obtain ⟨hturn, hpf⟩ := (loop_nodes hf greedy l).2.2 hp
    obtain ⟨n, hR⟩ := hR
    refine ⟨l.nodes.size, .head _, ?_⟩
    induction n generalizing i with
    | zero =>
      obtain rfl := hR
      exact .turn hturn (.inr h)
    | succ n ih =>
      obtain ⟨k, hR, hrest⟩ := hR
      obtain ⟨n', hn', hbody⟩ := hf.complete hpf hR (ih hrest)
      obtain rfl : n' = (f (loopStart l)).entry := List.mem_singleton.mp hn'
      exact .turn hturn (.inl hbody)

/-- From its body, a loop goes through the body once at least. -/
theorem plus (hf : Lays t R fun l => one (f l)) (greedy : Bool) :
    Lays t (fun i j => ∃ n, Expr.Times R (n + 1) i j) fun l =>
      one (Layout.loop f greedy l).1 where
  size_le l := (loop_nodes hf greedy l).1
  keeps l := (loop_nodes hf greedy l).2.1
  sound {p l _ _ _ n} hp hn h := by
    obtain ⟨-, hpf⟩ := (loop_nodes hf greedy l).2.2 hp
    obtain rfl : n = (f (loopStart l)).entry := List.mem_singleton.mp hn
    obtain ⟨i', k', hR, hle, h⟩ := hf.sound hpf (.head _) h
    obtain ⟨j, k'', ⟨n, hrest⟩, hle', h⟩ := (hf.star greedy).sound hp (.head _) h
    exact ⟨j, k'', ⟨n, i', hR, hrest⟩, Nat.le_trans hle' hle, h⟩
  complete {p l _ _ _} hp hR h := by
    obtain ⟨-, hpf⟩ := (loop_nodes hf greedy l).2.2 hp
    obtain ⟨n, k, hR, hrest⟩ := hR
    obtain ⟨n', hn', h⟩ := (hf.star greedy).complete hp ⟨n, hrest⟩ h
    obtain rfl : n' = l.nodes.size := List.mem_singleton.mp hn'
    exact hf.complete hpf hR h

theorem repetition_unbounded (f : Layout → Layout) (min : Nat) (greedy nullable : Bool)
    (l : Layout) : Layout.repetition f min none greedy nullable l =
      if 0 < min then Layout.times f (min - 1) (Layout.loop f greedy l).1
      else if nullable then (Layout.loop f greedy l).1.pushOnto (Layout.turn greedy · l.entry)
      else ⟨(Layout.loop f greedy l).1.nodes, (Layout.loop f greedy l).2⟩ := rfl

theorem repetition (hf : Lays t R fun l => one (f l)) {min : Nat} {max : Option Nat}
    (hbounds : ∀ m ∈ max, min ≤ m) (greedy nullable : Bool) :
    Lays t (fun i j => ∃ n, min ≤ n ∧ (∀ m ∈ max, n ≤ m) ∧ Expr.Times R n i j) fun l =>
      one (l.repetition f min max greedy nullable) := by
  cases max with
  | some max =>
    have hle : min ≤ max := hbounds max rfl
    refine ((hf.times min).comp (hf.optional greedy (max - min))).congr fun i j => ⟨?_, ?_⟩
    · rintro ⟨k, hfirst, m, hm, hrest⟩
      refine ⟨min + m, Nat.le_add_right _ _, ?_, Expr.times_add.mpr ⟨k, hfirst, hrest⟩⟩
      rintro _ ⟨⟩
      omega
    · rintro ⟨n, hmin, hmax, h⟩
      have hn : n ≤ max := hmax max rfl
      rw [show n = min + (n - min) by omega, Expr.times_add] at h
      obtain ⟨k, hfirst, hrest⟩ := h
      exact ⟨k, hfirst, n - min, by omega, hrest⟩
  | none =>
    simp only [repetition_unbounded]
    split
    · rename_i hmin
      refine ((hf.times (min - 1)).comp (hf.plus greedy)).congr fun i j => ⟨?_, ?_⟩
      · rintro ⟨k, hfirst, m, hrest⟩
        refine ⟨min - 1 + (m + 1), by omega, nofun, Expr.times_add.mpr ⟨k, hfirst, hrest⟩⟩
      · rintro ⟨n, hn, -, h⟩
        rw [show n = min - 1 + (n - min + 1) by omega, Expr.times_add] at h
        obtain ⟨k, hfirst, hrest⟩ := h
        exact ⟨k, hfirst, n - min, hrest⟩
    · rename_i hmin
      obtain rfl : min = 0 := by omega
      split
      · refine ((hf.plus greedy).turn greedy).congr fun i j => ⟨?_, ?_⟩
        · rintro (rfl | ⟨n, h⟩)
          · exact ⟨0, Nat.le_refl _, nofun, rfl⟩
          · exact ⟨n + 1, Nat.zero_le _, nofun, h⟩
        · rintro ⟨n, -, -, h⟩
          cases n with
          | zero => exact .inl h
          | succ n => exact .inr ⟨n, h⟩
      · refine (hf.star greedy).congr fun i j => ⟨?_, ?_⟩
        · rintro ⟨n, h⟩
          exact ⟨n, Nat.zero_le _, nofun, h⟩
        · rintro ⟨n, -, -, h⟩
          exact ⟨n, h⟩

/-! ### Single nodes -/

theorem read (t : Text) (s : CharSet) :
    Lays t (fun i j => (t.after? i).any s.contains = true ∧ i + 1 = j) fun l =>
      one (l.pushOnto (.read s)) := by
  refine pushOnto (fun hnode h => ?_) fun hnode hR h => ?_
  · cases h with
    | accept h => rw [hnode] at h; cases h
    | read h hc hnext =>
      rw [hnode] at h
      cases h
      exact ⟨_, _, ⟨hc, rfl⟩, Nat.le_succ _, hnext⟩
    | move hm _ => rw [Program.moves, hnode] at hm; cases hm
  · obtain ⟨hc, rfl⟩ := hR
    exact h.read hnode hc

theorem look (t : Text) (k : Look) :
    Lays t (fun i j => k.holds t i = true ∧ i = j) fun l => one (l.pushOnto (.look k)) := by
  refine pushOnto (fun hnode h => ?_) fun hnode hR h => ?_
  · cases h with
    | accept h => rw [hnode] at h; cases h
    | read h _ _ => rw [hnode] at h; cases h
    | move hm h =>
      rw [Program.moves, hnode, Option.elim_some, Node.moves] at hm
      split at hm
      · rename_i hholds
        cases List.mem_singleton.mp hm
        exact ⟨_, _, ⟨hholds, rfl⟩, Nat.le_succ _, h⟩
      · cases hm
  · obtain ⟨hholds, rfl⟩ := hR
    refine .move ?_ h
    rw [Program.moves, hnode, Option.elim_some, Node.moves, if_pos hholds]
    exact .head _

theorem save (t : Text) (slot : Nat) :
    Lays t (· = ·) fun l => one (l.pushOnto (.save slot)) := by
  refine pushOnto (fun hnode h => ?_) fun hnode hR h => ?_
  · cases h with
    | accept h => rw [hnode] at h; cases h
    | read h _ _ => rw [hnode] at h; cases h
    | move hm h =>
      rw [Program.moves, hnode] at hm
      cases List.mem_singleton.mp hm
      exact ⟨_, _, rfl, Nat.le_succ _, h⟩
  · cases hR
    refine .move ?_ h
    rw [Program.moves, hnode]
    exact .head _

theorem literal (t : Text) (cs : List Char) :
    Lays t (Expr.Reads t cs) fun l =>
      one (cs.foldr (fun c => Layout.pushOnto (.read (.singleton c))) l) := by
  induction cs with
  | nil => exact id
  | cons c cs ih =>
    refine ((read t (.singleton c)).comp ih).congr fun i j => ⟨?_, ?_⟩
    · rintro ⟨_, ⟨hc, rfl⟩, hrest⟩
      refine ⟨?_, hrest⟩
      cases hd : t.after? i with
      | none => rw [hd] at hc; cases hc
      | some d =>
        rw [hd] at hc
        exact congrArg some (CharSet.contains_singleton.mp hc)
    · rintro ⟨hc, hrest⟩
      refine ⟨i + 1, ⟨?_, rfl⟩, hrest⟩
      rw [hc]
      exact CharSet.contains_singleton.mpr rfl

end Lays

/-- A proper expression is laid out for what it stands for. -/
theorem Expr.lays (t : Text) {e : Expr} (he : e.Proper) : Lays t (e.Spells t) e.entries := by
  induction e with
  | empty => exact .id
  | literal cs => exact .literal t cs
  | set s => exact .read t s
  | look k => exact .look t k
  | group i name e ih =>
    refine ((Lays.save t (startSlot i)).comp ((ih he).join.comp (.save t (stopSlot i)))).congr ?_
    intro i j
    constructor
    · rintro ⟨_, rfl, _, h, rfl⟩
      exact h
    · exact fun h => ⟨i, rfl, j, h, rfl⟩
  | seq a b iha ihb => exact (iha he.1).join.comp (ihb he.2).join
  | alt a b iha ihb => exact (iha he.1).alt (ihb he.2)
  | rep e min max greedy ih => exact (ih he.1).join.repetition he.2 greedy e.isNullable

theorem Program.AcceptsIn.stop_le_size {p : Program} {t : Text} {stop k n i : Nat}
    (h : p.AcceptsIn t stop k n i) (hi : i ≤ t.size) : stop ≤ t.size := by
  induction h with
  | accept _ => exact hi
  | @read _ _ i _ _ _ hc _ ih =>
    refine ih (Nat.lt_of_not_le fun hle => ?_)
    rw [Text.after?, Array.getElem?_eq_none hle] at hc
    cases hc
  | move _ _ ih => exact ih hi

/-- The matches of a regular expression are what its expression stands for. -/
theorem mem_ends_ofExpr {e : Expr} (he : e.Proper) (source : String) {t : Text}
    {start stop : Nat} (hs : start ≤ t.size) :
    stop ∈ (ofExpr source e).ends t start ↔ e.Spells t start stop := by
  have hlays := (Expr.lays t he).join
  let l : Layout := ⟨#[.accept], 0⟩
  have hp : e.program.HasFrom l.nodes.size (Layout.join (e.entries l)).nodes :=
    fun n _ _ => rfl
  have haccept : e.program.nodes[0]? = some .accept := hlays.keeps l 0 Nat.one_pos
  rw [ends, Program.mem_endsFrom]
  constructor
  · rintro ⟨-, k, h⟩
    obtain ⟨j, k', hspells, -, h⟩ := hlays.sound hp (.head _) h
    cases h with
    | accept _ => exact hspells
    | read h _ _ => rw [haccept] at h; cases h
    | move hm _ => rw [Program.moves, haccept] at hm; cases hm
  · intro hspells
    obtain ⟨n, hn, k, h⟩ := hlays.complete hp hspells ⟨0, .accept haccept⟩
    cases List.mem_singleton.mp hn
    have := h.stop_le_size hs
    exact ⟨by omega, k, h⟩

end Tinct.Regex
