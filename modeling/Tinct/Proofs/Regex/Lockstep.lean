import Mathlib.Algebra.GroupWithZero.Nat
import Mathlib.Algebra.Order.BigOperators.Group.List
import Mathlib.Algebra.Order.Group.Nat
import Mathlib.Data.List.Range
import Tinct.Proofs.Regex.Backtracking

/-!
# Threads in step find what backtracking finds

Threads that walk through a program in step drop a thread at a node that has been visited at the
same position. The first match is the one that backtracking comes to first all the same:

* `Program.Unexplored`: what is known of the nodes that a search has visited and found nothing at,
  and of the threads that still wait;
* `Program.findSome?_spread_ways`: the first of the threads at a position that is a hit is the one
  that backtracking comes to first, with what it has recorded;
* `Program.findSome?_spread`: so it stands where backtracking finds a hit first.
-/

namespace Tinct.Regex

/-! ## Sets of nodes -/

namespace NodeSet

theorem size_insert (s : NodeSet) (n : Nat) : (s.insert n).marks.size = s.marks.size :=
  Array.size_setIfInBounds ..

theorem contains_insert {s : NodeSet} {n m : Nat} (h : n < s.marks.size) :
    (s.insert n).contains m = true ↔ m = n ∨ s.contains m = true := by
  unfold contains insert
  rw [Array.getD_eq_getD_getElem?, Array.getElem?_setIfInBounds, Array.getD_eq_getD_getElem?]
  by_cases hnm : n = m
  · subst hnm
    simp [h]
  · simp [hnm, Ne.symm hnm]

theorem insert_of_size_le {s : NodeSet} {n : Nat} (h : s.marks.size ≤ n) : s.insert n = s := by
  obtain ⟨marks⟩ := s
  exact congrArg NodeSet.mk (Array.setIfInBounds_eq_of_size_le h)

theorem contains_none (n m : Nat) : (none n).contains m = false := by
  unfold contains none
  rw [Array.getD_eq_getD_getElem?, Array.getElem?_replicate]
  split <;> rfl

end NodeSet

/-- Whether a thread stays at the node when it goes on from there. -/
def Node.stays : Node → Bool
  | .save _ _ => false
  | .accept | .read _ _ | .look _ _ | .fork _ => true

namespace Program

def stays (p : Program) (n : Nat) : Bool := (p.nodes[n]?).any (·.stays)

/-- Nothing is hit but where threads stay. -/
def HitsStays {β : Type} (p : Program) (hit : Nat → Option β) : Prop :=
  ∀ n, p.stays n = false → hit n = none

/-- Whether a thread is a hit is a matter of its node, and nothing is hit but where threads stay. -/
structure HitsByNode {β : Type} (p : Program) (hit : Thread → Option β) : Prop where
  stays : ∀ th, p.stays th.node = false → hit th = none
  node : ∀ th th', th.node = th'.node → hit th = none → hit th' = none

variable {p : Program} {passes : Look → Bool} {here : Nat} {β : Type} {hit : Thread → Option β}

/-! ## One step -/

/-- A thread that comes to a new node is replaced by threads at the moves from there, and stays
itself at most nodes. -/
theorem spreadFrom_cons {fuel : Nat} {t : Thread} {waiting : List Thread} {seen : NodeSet}
    (h : seen.contains t.node = false) :
    ∃ out : List Thread,
      (out = [t] ∧ (p.stays t.node = true ∨ p.nodes.size ≤ t.node) ∨
        out = [] ∧ p.stays t.node = false) ∧
      p.spreadFrom passes here (fuel + 1) (t :: waiting) seen =
        out ++ p.spreadFrom passes here fuel (p.onward passes here t ++ waiting)
          (seen.insert t.node) := by
  unfold stays onward
  rw [spreadFrom, if_neg (by rw [h]; exact Bool.false_ne_true)]
  dsimp only
  cases hn : p.nodes[t.node]? with
  | none => exact ⟨[t], .inl ⟨rfl, .inr (Array.getElem?_eq_none_iff.mp hn)⟩, rfl⟩
  | some node =>
    cases node with
    | accept => exact ⟨[t], .inl ⟨rfl, .inl rfl⟩, rfl⟩
    | read s next => exact ⟨[t], .inl ⟨rfl, .inl rfl⟩, rfl⟩
    | fork nexts => exact ⟨[t], .inl ⟨rfl, .inl rfl⟩, rfl⟩
    | save slot next => exact ⟨[], .inr ⟨rfl, rfl⟩, rfl⟩
    | look l next =>
      dsimp only
      cases passes l with
      | true => exact ⟨[t], .inl ⟨rfl, .inl rfl⟩, rfl⟩
      | false => exact ⟨[t], .inl ⟨rfl, .inl rfl⟩, rfl⟩

/-- A thread that has come to a position stays where it is, or there is no such node. -/
theorem mem_spreadFrom {fuel : Nat} {threads : List Thread} {seen : NodeSet} {t : Thread}
    (h : t ∈ p.spreadFrom passes here fuel threads seen) :
    p.stays t.node = true ∨ p.nodes.size ≤ t.node := by
  induction fuel generalizing threads seen with
  | zero => cases h
  | succ fuel ih =>
    cases threads with
    | nil => cases h
    | cons t' waiting =>
      cases hseen : seen.contains t'.node with
      | true =>
        rw [spreadFrom, if_pos hseen] at h
        exact ih h
      | false =>
        obtain ⟨out, hout, hspread⟩ := spreadFrom_cons hseen
        rw [hspread] at h
        rcases List.mem_append.mp h with h | h
        · rcases hout with ⟨rfl, hstays⟩ | ⟨rfl, -⟩
          · exact List.mem_singleton.mp h ▸ hstays
          · cases h
        · exact ih h

theorem moves_of_size_le {n : Nat} (h : p.nodes.size ≤ n) : p.moves passes n = [] := by
  rw [moves, Array.getElem?_eq_none h]
  rfl

theorem stays_of_size_le {n : Nat} (h : p.nodes.size ≤ n) : p.stays n = false := by
  unfold stays
  rw [Array.getElem?_eq_none h]
  rfl

/-- A thread that waits, with the nodes that are left to it: all but those on its way. -/
structure Waiting where
  thread : Thread
  rest : List Nat

theorem mem_moves_of_mem_onward {th th' : Thread} (h : th' ∈ p.onward passes here th) :
    th'.node ∈ p.moves passes th.node :=
  map_node_onward here th ▸ List.mem_map_of_mem h

theorem findSome?_ways {rest : List Nat} {th : Thread} (h : th.node ∈ rest) :
    (p.ways passes here rest th).findSome? hit = (hit th).or
      (((p.onward passes here th).flatMap
        (p.ways passes here (rest.erase th.node))).findSome? hit) := by
  rw [ways, if_pos h, List.findSome?_cons]
  cases hit th <;> rfl

theorem findSome?_flatMap {α γ : Type} (f : α → List γ) (g : γ → Option β) (l : List α) :
    (l.flatMap f).findSome? g = l.findSome? fun a => (f a).findSome? g := by
  induction l with
  | nil => rfl
  | cons a l ih =>
    rw [List.flatMap_cons, List.findSome?_append, List.findSome?_cons, ih]
    cases (f a).findSome? g <;> rfl

/-- There is no such node. -/
theorem findSome?_ways_of_size_le (hhit : p.HitsByNode hit) {rest : List Nat} {th : Thread}
    (h : p.nodes.size ≤ th.node) : (p.ways passes here rest th).findSome? hit = none := by
  by_cases hth : th.node ∈ rest
  · have honward : p.onward passes here th = [] := by
      rw [← List.map_eq_nil_iff, map_node_onward, moves_of_size_le h]
    rw [findSome?_ways hth, hhit.stays th (stays_of_size_le h), honward]
    rfl
  · rw [ways, if_neg hth]
    rfl

/-- The nodes that have been visited have shown nothing so far: none of them is a hit, and whatever
is left to be seen of them lies with a thread that waits and has come by. The nodes on the way of a
thread have been visited, and threads that wait longer have fewer of them. -/
structure Unexplored (p : Program) (passes : Look → Bool) (hit : Thread → Option β)
    (seen : NodeSet) (stack : List Waiting) : Prop where
  size : seen.marks.size = p.nodes.size
  miss : ∀ th : Thread, seen.contains th.node = true → hit th = none
  closed : ∀ n, seen.contains n = true → ∀ m ∈ p.moves passes n, m < p.nodes.size →
    seen.contains m = true ∨ ∃ w ∈ stack, n ∉ w.rest ∧ w.thread.node = m
  way : ∀ w ∈ stack, ∀ n < p.nodes.size, n ∉ w.rest → seen.contains n = true
  nodup : ∀ w ∈ stack, w.rest.Nodup
  nested : stack.Pairwise fun w w' => ∀ n ∈ w.rest, n ∈ w'.rest

/-- The first hit that backtracking comes to from the threads that wait. -/
def firstHit (p : Program) (passes : Look → Bool) (here : Nat) (hit : Thread → Option β)
    (stack : List Waiting) : Option β :=
  stack.findSome? fun w => (p.ways passes here w.rest w.thread).findSome? hit

namespace Unexplored
variable {seen : NodeSet} {w : Waiting} {stack : List Waiting}

/-- From a visited node, backtracking past the way of the innermost thread finds nothing. -/
theorem ways_miss (here : Nat) (h : Unexplored p passes hit seen (w :: stack))
    (hhit : p.HitsByNode hit) {rest : List Nat} {th : Thread} (hrest : ∀ m ∈ rest, m ∈ w.rest)
    (hth : seen.contains th.node = true) :
    (p.ways passes here rest th).findSome? hit = none := by
  induction rest, th using ways.induct with
  | case1 rest th hmem ih =>
    rw [findSome?_ways hmem, h.miss th hth, Option.none_or, List.findSome?_eq_none_iff]
    intro k hk
    obtain ⟨th', hth', hk⟩ := List.mem_flatMap.mp hk
    refine List.findSome?_eq_none_iff.mp ?_ k hk
    rcases Nat.lt_or_ge th'.node p.nodes.size with hlt | hge
    · have hseen : seen.contains th'.node = true := by
        -- no thread that waits has come by the node of `th`, which is left to the innermost one
        refine (h.closed th.node hth th'.node (mem_moves_of_mem_onward hth') hlt).resolve_right ?_
        rintro ⟨w', hw', hnot, -⟩
        rcases List.mem_cons.mp hw' with rfl | hw'
        · exact hnot (hrest th.node hmem)
        · exact hnot ((List.pairwise_cons.mp h.nested).1 w' hw' th.node (hrest th.node hmem))
      exact ih th' (fun k hk => hrest k (List.mem_of_mem_erase hk)) hseen
    · exact findSome?_ways_of_size_le hhit hge
  | case2 rest th hmem =>
    rw [ways, if_neg hmem]
    rfl

/-- The innermost thread has come to a node that has been visited. -/
theorem drop (h : Unexplored p passes hit seen (w :: stack))
    (hw : seen.contains w.thread.node = true ∨ p.nodes.size ≤ w.thread.node) :
    Unexplored p passes hit seen stack where
  size := h.size
  miss := h.miss
  closed n hn m hm hlt := by
    refine (h.closed n hn m hm hlt).elim .inl ?_
    rintro ⟨w', hw', hnot, rfl⟩
    rcases List.mem_cons.mp hw' with rfl | hw'
    · exact .inl (hw.resolve_right (Nat.not_le_of_lt hlt))
    · exact .inr ⟨w', hw', hnot, rfl⟩
  way w' hw' := h.way w' (List.mem_cons_of_mem _ hw')
  nodup w' hw' := h.nodup w' (List.mem_cons_of_mem _ hw')
  nested := (List.pairwise_cons.mp h.nested).2

/-- The innermost thread has come to a new node that is no hit, and threads at the moves from there
take its place. -/
theorem visit (here : Nat) (h : Unexplored p passes hit seen (w :: stack))
    (hhit : p.HitsByNode hit) (hlt : w.thread.node < p.nodes.size) (hnone : hit w.thread = none) :
    Unexplored p passes hit (seen.insert w.thread.node)
      ((p.onward passes here w.thread).map (⟨·, w.rest.erase w.thread.node⟩) ++ stack) := by
  have hcontains (m : Nat) : (seen.insert w.thread.node).contains m = true ↔
      m = w.thread.node ∨ seen.contains m = true :=
    NodeSet.contains_insert (h.size ▸ hlt)
  have hwrest := h.nodup w (List.mem_cons_self ..)
  have hnotin : w.thread.node ∉ w.rest.erase w.thread.node := hwrest.not_mem_erase
  refine ⟨?_, fun th hth => ?_, fun n hn m hm hmlt => ?_, fun w' hw' n hn hnot => ?_,
    fun w' hw' => ?_, ?_⟩
  · rw [NodeSet.size_insert, h.size]
  · rcases (hcontains th.node).mp hth with heq | hth
    · exact hhit.node w.thread th heq.symm hnone
    · exact h.miss th hth
  · rw [hcontains]
    rcases (hcontains n).mp hn with rfl | hn
    · rw [← map_node_onward here] at hm
      obtain ⟨t, ht, rfl⟩ := List.mem_map.mp hm
      exact .inr ⟨_, List.mem_append_left _ (List.mem_map_of_mem ht), hnotin, rfl⟩
    · rcases h.closed n hn m hm hmlt with hseen | ⟨w', hw', hnot, rfl⟩
      · exact .inl (.inr hseen)
      · rcases List.mem_cons.mp hw' with rfl | hw'
        · exact .inl (.inl rfl)
        · exact .inr ⟨w', List.mem_append_right _ hw', hnot, rfl⟩
  · rw [hcontains]
    rcases List.mem_append.mp hw' with hw' | hw'
    · obtain ⟨t, -, rfl⟩ := List.mem_map.mp hw'
      by_cases hnw : n = w.thread.node
      · exact .inl hnw
      · refine .inr (h.way w (List.mem_cons_self ..) n hn fun hmem => hnot ?_)
        exact (List.mem_erase_of_ne hnw).mpr hmem
    · exact .inr (h.way w' (List.mem_cons_of_mem _ hw') n hn hnot)
  · rcases List.mem_append.mp hw' with hw' | hw'
    · obtain ⟨t, -, rfl⟩ := List.mem_map.mp hw'
      exact hwrest.erase _
    · exact h.nodup w' (List.mem_cons_of_mem _ hw')
  · obtain ⟨hfirst, hstack⟩ := List.pairwise_cons.mp h.nested
    refine List.pairwise_append.mpr ⟨?_, hstack, fun w' hw' w'' hw'' n hn => ?_⟩
    · exact List.pairwise_map.mpr (List.pairwise_of_forall fun _ _ n hn => hn)
    · obtain ⟨t, -, rfl⟩ := List.mem_map.mp hw'
      exact hfirst w'' hw'' n (List.mem_of_mem_erase hn)

end Unexplored

/-! ### The fuel -/

/-- How many moves there are from the nodes that have not been visited. -/
def pending (p : Program) (passes : Look → Bool) (seen : NodeSet) : Nat :=
  ((List.range p.nodes.size).map fun n =>
    if seen.contains n then 0 else (p.moves passes n).length).sum

theorem sum_map_eq_add {f f' : Nat → Nat} {l : List Nat} {n c : Nat} (hl : l.Nodup) (hn : n ∈ l)
    (h : f n = f' n + c) (hf : ∀ m ∈ l, m ≠ n → f m = f' m) :
    (l.map f).sum = (l.map f').sum + c := by
  induction l with
  | nil => cases hn
  | cons m l ih =>
    obtain ⟨hm, hl⟩ := List.nodup_cons.mp hl
    rw [List.map_cons, List.map_cons, List.sum_cons, List.sum_cons]
    rcases List.mem_cons.mp hn with rfl | hn
    · have hrest : l.map f = l.map f' := List.map_congr_left fun k hk =>
        hf k (List.mem_cons_of_mem _ hk) fun hkm => hm (hkm ▸ hk)
      rw [h, hrest]
      omega
    · have hne : m ≠ n := fun hmn => hm (hmn ▸ hn)
      rw [hf m (List.mem_cons_self ..) hne,
        ih hl hn fun k hk => hf k (List.mem_cons_of_mem _ hk)]
      omega

theorem pending_insert {seen : NodeSet} {n : Nat} (hsize : seen.marks.size = p.nodes.size)
    (hlt : n < p.nodes.size) (hn : seen.contains n = false) :
    p.pending passes seen = p.pending passes (seen.insert n) + (p.moves passes n).length := by
  have hcontains (m : Nat) := NodeSet.contains_insert (s := seen) (m := m) (hsize ▸ hlt)
  refine sum_map_eq_add List.nodup_range (List.mem_range.mpr hlt) ?_ fun m _ hne => ?_
  · rw [if_neg (by rw [hn]; exact Bool.false_ne_true), if_pos ((hcontains n).mpr (.inl rfl)),
      Nat.zero_add]
  · have hiff : (seen.insert n).contains m = true ↔ seen.contains m = true :=
      (hcontains m).trans ⟨fun h => h.resolve_left hne, .inr⟩
    simp only [hiff]

/-! ### All threads that wait -/

theorem firstHit_append (stack stack' : List Waiting) :
    p.firstHit passes here hit (stack ++ stack') =
      (p.firstHit passes here hit stack).or (p.firstHit passes here hit stack') :=
  List.findSome?_append

/-- Threads with the same way together find what backtracking finds from all of them. -/
theorem firstHit_map (rest : List Nat) (news : List Thread) :
    p.firstHit passes here hit (news.map (⟨·, rest⟩)) =
      (news.flatMap (p.ways passes here rest)).findSome? hit := by
  rw [firstHit, findSome?_flatMap, List.findSome?_map]
  rfl

theorem map_thread (rest : List Nat) (news : List Thread) :
    (news.map (Waiting.mk · rest)).map (·.thread) = news := by
  rw [List.map_map]
  exact List.map_id news

theorem findSome?_out (hhit : p.HitsByNode hit) {t : Thread} {out : List Thread}
    (h : out = [t] ∧ (p.stays t.node = true ∨ p.nodes.size ≤ t.node) ∨
      out = [] ∧ p.stays t.node = false) :
    out.findSome? hit = hit t := by
  rcases h with ⟨rfl, -⟩ | ⟨rfl, hstays⟩
  · rw [List.findSome?_singleton]
  · rw [hhit.stays t hstays, List.findSome?_nil]

theorem findSome?_spreadFrom (hhit : p.HitsByNode hit) {fuel : Nat} {stack : List Waiting}
    {seen : NodeSet} (h : Unexplored p passes hit seen stack)
    (hfuel : stack.length + p.pending passes seen < fuel) :
    (p.spreadFrom passes here fuel (stack.map (·.thread)) seen).findSome? hit =
      p.firstHit passes here hit stack := by
  induction fuel generalizing stack seen with
  | zero => exact absurd hfuel (Nat.not_lt_zero _)
  | succ fuel ih =>
    cases stack with
    | nil => rfl
    | cons w stack =>
      have htop : p.firstHit passes here hit (w :: stack) =
          ((p.ways passes here w.rest w.thread).findSome? hit).or
            (p.firstHit passes here hit stack) :=
        firstHit_append [w] stack ▸ by rw [firstHit, List.findSome?_singleton]
      rw [List.length_cons] at hfuel
      rw [List.map_cons, htop]
      by_cases hseen : seen.contains w.thread.node = true
      · have hmiss := h.ways_miss here hhit (fun m hm => hm) hseen
        rw [spreadFrom, if_pos hseen, ih (h.drop (.inl hseen)) (by omega), hmiss, Option.none_or]
      have hunseen : seen.contains w.thread.node = false := Bool.eq_false_iff.mpr hseen
      obtain ⟨out, hout, hspread⟩ := spreadFrom_cons hunseen
      have hnews := @map_node_onward p passes here w.thread
      rw [hspread, List.findSome?_append, findSome?_out hhit hout]
      rcases Nat.lt_or_ge w.thread.node p.nodes.size with hlt | hge
      · have hmem : w.thread.node ∈ w.rest := by
          by_contra hnot
          exact hseen (h.way w (List.mem_cons_self ..) _ hlt hnot)
        rw [findSome?_ways hmem]
        cases hnone : hit w.thread with
        | some b => rfl
        | none =>
          have hpending : p.pending passes seen = _ := pending_insert h.size hlt hunseen
          have hlength : (p.onward passes here w.thread).length =
              (p.moves passes w.thread.node).length := by rw [← hnews, List.length_map]
          have hrest := ih (h.visit here hhit hlt hnone) (by
            rw [List.length_append, List.length_map]
            omega)
          rwa [List.map_append, map_thread, firstHit_append, firstHit_map] at hrest
      · rw [moves_of_size_le hge, List.map_eq_nil_iff] at hnews
        rw [hhit.stays w.thread (stays_of_size_le hge), hnews,
          NodeSet.insert_of_size_le (h.size ▸ hge), findSome?_ways_of_size_le hhit hge,
          List.nil_append, ih (h.drop (.inr hge)) (by omega)]

theorem foldl_add_eq {α : Type} (f : α → Nat) (l : List α) (n : Nat) :
    l.foldl (fun n a => n + f a) n = n + (l.map f).sum := by
  induction l generalizing n with
  | nil => rfl
  | cons a l ih => rw [List.foldl_cons, ih, List.map_cons, List.sum_cons, Nat.add_assoc]

theorem pending_none_le (p : Program) (passes : Look → Bool) :
    p.pending passes (.none p.nodes.size) ≤ p.edgeCount := by
  have hnexts : p.nodes.toList.map (·.nexts.length) =
      (List.range p.nodes.size).map fun n => (p.nodes[n]?).elim 0 (·.nexts.length) := by
    refine List.ext_getElem (by simp) fun n h _ => ?_
    have hn : n < p.nodes.size := by simpa using h
    simp [hn]
  rw [p.edgeCount_eq, ← Array.foldl_toList, foldl_add_eq, Nat.zero_add, hnexts]
  refine List.sum_le_sum fun n _ => ?_
  rw [NodeSet.contains_none, if_neg Bool.false_ne_true, moves]
  cases p.nodes[n]? with
  | none => exact Nat.le_refl 0
  | some node => exact node.length_moves_le passes

/-- Threads that walk in step find first what backtracking finds first. -/
theorem findSome?_spread_ways (hhit : p.HitsByNode hit) (threads : List Thread) :
    (p.spread passes here threads).findSome? hit =
      (threads.flatMap (p.ways passes here (List.range p.nodes.size))).findSome? hit := by
  have hstart : Unexplored p passes hit (.none p.nodes.size)
      (threads.map (⟨·, List.range p.nodes.size⟩)) := by
    have hnone (n : Nat) (h : (NodeSet.none p.nodes.size).contains n = true) : False := by
      rw [NodeSet.contains_none] at h
      cases h
    refine ⟨Array.size_replicate, fun th hth => (hnone th.node hth).elim,
      fun n hn => (hnone n hn).elim, fun w hw n hn hnot => ?_, fun w hw => ?_, ?_⟩
    · obtain ⟨t, -, rfl⟩ := List.mem_map.mp hw
      exact absurd (List.mem_range.mpr hn) hnot
    · obtain ⟨t, -, rfl⟩ := List.mem_map.mp hw
      exact List.nodup_range
    · exact List.pairwise_map.mpr (List.pairwise_of_forall fun _ _ n hn => hn)
  have hpending := p.pending_none_le passes
  have hfuel : (threads.map (Waiting.mk · (List.range p.nodes.size))).length +
      p.pending passes (.none p.nodes.size) < p.edgeCount + threads.length + 1 := by
    rw [List.length_map]
    omega
  rw [← firstHit_map, ← findSome?_spreadFrom hhit hstart hfuel, map_thread]
  rfl

section nodes
variable {hit : Nat → Option β}

theorem HitsStays.hitsByNode (hhit : p.HitsStays hit) : p.HitsByNode fun th => hit th.node where
  stays th := hhit th.node
  node _ _ hnode h := hnode ▸ h

theorem findSome?_visits {rest : List Nat} {n : Nat} (hn : n ∈ rest) :
    (p.visits passes rest n).findSome? hit = (hit n).or
      (((p.moves passes n).flatMap (p.visits passes (rest.erase n))).findSome? hit) := by
  rw [visits, if_pos hn, List.findSome?_cons]
  cases hit n <;> rfl

/-- There is no such node. -/
theorem findSome?_visits_of_size_le (hhit : p.HitsStays hit) {rest : List Nat} {n : Nat}
    (h : p.nodes.size ≤ n) : (p.visits passes rest n).findSome? hit = none := by
  rw [← map_node_ways 0 rest ⟨n, []⟩, List.findSome?_map]
  exact findSome?_ways_of_size_le hhit.hitsByNode h

/-- They stand where backtracking finds a hit first. -/
theorem findSome?_spread (hhit : p.HitsStays hit) (threads : List Thread) :
    (p.spread passes here threads).findSome? (fun t => hit t.node) =
      ((threads.map (·.node)).flatMap
        (p.visits passes (List.range p.nodes.size))).findSome? hit := by
  rw [findSome?_spread_ways hhit.hitsByNode, findSome?_flatMap, findSome?_flatMap,
    List.findSome?_map]
  refine congrArg (threads.findSome? ·) (funext fun th => ?_)
  rw [Function.comp, ← map_node_ways here, List.findSome?_map]
  rfl

end nodes

end Program
end Tinct.Regex
