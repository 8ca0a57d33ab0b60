import Tinct.Proofs.Regex.Lockstep

/-!
# Assertions asked late

A late search lets threads wait at the assertions about what follows, and has them set out once more
when one turns out to hold. The first match is the same as if all assertions were asked at once:

* `Program.found`: what backtracking finds first from a node;
* `Program.found_eq_none_of_mem_moves`, `Program.found_eq_of_moves`: how that goes with the moves;
* `Program.findSome?_settle`: whenever assertions are asked, the first of the threads at a position
  that stands at a hit stands where backtracking finds a hit first.
-/

namespace Tinct.Regex

theorem Look.holds_of_holdsBehind {t : Text} {i : Nat} {l : Look} (h : l.holdsBehind t i = true) :
    l.holds t i = true := by
  cases l <;> simp_all [Look.holdsBehind, Look.holds]

namespace Program
variable {p : Program} {passes : Look → Bool} {here : Nat} {β : Type} {hit : Nat → Option β}

/-! ## Ways to a node -/

theorem mem_visits_iff {rest : List Nat} {n k : Nat} :
    k ∈ p.visits passes rest n ↔
      n ∈ rest ∧ (k = n ∨ ∃ m ∈ p.moves passes n, k ∈ p.visits passes (rest.erase n) m) := by
  rw [visits]
  split
  · rename_i h
    rw [List.mem_cons, List.mem_flatMap]
    exact ⟨fun hk => ⟨h, hk⟩, fun hk => hk.2⟩
  · rename_i h
    exact ⟨fun hk => absurd hk List.not_mem_nil, fun hk => absurd hk.1 h⟩

theorem visits_subset {rest rest' : List Nat} (h : rest.Sublist rest') {n k : Nat}
    (hk : k ∈ p.visits passes rest n) : k ∈ p.visits passes rest' n := by
  induction rest, n using visits.induct generalizing rest' with
  | case1 rest n hn ih =>
    obtain ⟨-, hk⟩ := mem_visits_iff.mp hk
    refine mem_visits_iff.mpr ⟨h.subset hn, hk.imp_right ?_⟩
    rintro ⟨m, hm, hkm⟩
    exact ⟨m, hm, ih m (h.erase n) hkm⟩
  | case2 rest n hn => exact absurd (mem_visits_iff.mp hk).1 hn

/-- A way avoids the node `j`, or goes on from there. -/
theorem mem_visits_erase {rest : List Nat} (j : Nat) {n k : Nat} (hk : k ∈ p.visits passes rest n) :
    k ∈ p.visits passes (rest.erase j) n ∨ k ∈ p.visits passes rest j := by
  induction rest, n using visits.induct with
  | case1 rest n hn ih =>
    by_cases hj : n = j
    · exact .inr (hj ▸ hk)
    have hn' : n ∈ rest.erase j := (List.mem_erase_of_ne hj).mpr hn
    obtain ⟨-, rfl | ⟨m, hm, hkm⟩⟩ := mem_visits_iff.mp hk
    · exact .inl (mem_visits_iff.mpr ⟨hn', .inl rfl⟩)
    · rcases ih m hkm with hkm | hkj
      · rw [List.erase_comm] at hkm
        exact .inl (mem_visits_iff.mpr ⟨hn', .inr ⟨m, hm, hkm⟩⟩)
      · exact .inr (visits_subset List.erase_sublist hkj)
  | case2 rest n hn => exact absurd (mem_visits_iff.mp hk).1 hn

/-! ## What is found first -/

/-- What backtracking finds first from a node. -/
def found (p : Program) (passes : Look → Bool) (hit : Nat → Option β) (n : Nat) : Option β :=
  (p.visits passes (List.range p.nodes.size) n).findSome? hit

theorem found_of_size_le (hhit : p.HitsStays hit) {n : Nat} (h : p.nodes.size ≤ n) :
    p.found passes hit n = none :=
  findSome?_visits_of_size_le hhit h

/-- Nothing is found behind a node from which nothing is found. -/
theorem found_eq_none_of_mem_moves {n m : Nat} (h : p.found passes hit n = none)
    (hm : m ∈ p.moves passes n) : p.found passes hit m = none := by
  have hn : n ∈ List.range p.nodes.size := by
    refine List.mem_range.mpr (Nat.lt_of_not_le fun hle => ?_)
    rw [moves_of_size_le hle] at hm
    cases hm
  refine List.findSome?_eq_none_iff.mpr fun k hk => List.findSome?_eq_none_iff.mp h k ?_
  rcases mem_visits_erase n hk with hk | hk
  · exact mem_visits_iff.mpr ⟨hn, .inr ⟨m, hm, hk⟩⟩
  · exact hk

/-- A node that is no hit and leads to one node only may be left out of account in front of it. -/
theorem findSome?_visits_erase {n next : Nat} (hmoves : p.moves passes n = [next])
    (hnone : hit n = none) {rest : List Nat} (hrest : rest.Nodup) (hnext : next ∉ rest) (m : Nat) :
    (p.visits passes (rest.erase n) m).findSome? hit = (p.visits passes rest m).findSome? hit := by
  induction rest, m using visits.induct with
  | case1 rest m hm ih =>
    rw [findSome?_visits hm]
    by_cases hmn : m = n
    · subst hmn
      have hmiss : next ∉ rest.erase m := fun h => hnext (List.mem_of_mem_erase h)
      rw [hnone, hmoves, visits, if_neg hrest.not_mem_erase, List.flatMap_singleton, visits,
        if_neg hmiss]
      rfl
    · have hbehind (k : Nat) := ih k (hrest.erase m) fun h => hnext (List.mem_of_mem_erase h)
      rw [findSome?_visits ((List.mem_erase_of_ne hmn).mpr hm), List.erase_comm,
        findSome?_flatMap, findSome?_flatMap]
      simp only [hbehind]
  | case2 rest m hm => rw [visits, visits, if_neg hm, if_neg fun h => hm (List.mem_of_mem_erase h)]

/-- From a node that is no hit the same is found as from the only node it leads to. -/
theorem found_eq_of_moves {n next : Nat} (hmoves : p.moves passes n = [next])
    (hnone : hit n = none) : p.found passes hit n = p.found passes hit next := by
  have hrange : (List.range p.nodes.size).Nodup := List.nodup_range
  have hn : n ∈ List.range p.nodes.size := by
    refine List.mem_range.mpr (Nat.lt_of_not_le fun hle => ?_)
    rw [moves_of_size_le hle] at hmoves
    cases hmoves
  have hfound : p.found passes hit n =
      (p.visits passes ((List.range p.nodes.size).erase n) next).findSome? hit := by
    rw [found, findSome?_visits hn, hnone, hmoves, List.flatMap_singleton, Option.none_or]
  by_cases hself : next = n
  · rw [hself]
  rw [hfound, found]
  by_cases hnext : next ∈ List.range p.nodes.size
  · rw [findSome?_visits hnext, findSome?_visits ((List.mem_erase_of_ne hself).mpr hnext),
      List.erase_comm, findSome?_flatMap, findSome?_flatMap]
    simp only [findSome?_visits_erase hmoves hnone (hrange.erase next) hrange.not_mem_erase]
  · rw [visits, visits, if_neg hnext, if_neg fun h => hnext (List.mem_of_mem_erase h)]

/-! ## Setting out once more -/

theorem findSome?_congr {α : Type} {f g : α → Option β} {l : List α} (h : ∀ a ∈ l, f a = g a) :
    l.findSome? f = l.findSome? g := by
  induction l with
  | nil => rfl
  | cons a l ih =>
    rw [List.findSome?_cons, List.findSome?_cons, h a (List.mem_cons_self ..),
      ih fun b hb => h b (List.mem_cons_of_mem _ hb)]

section later
variable {passes' : Look → Bool}

theorem moves_subset (h : ∀ l, passes l = true → passes' l = true) {n m : Nat}
    (hm : m ∈ p.moves passes n) : m ∈ p.moves passes' n := by
  unfold moves at hm ⊢
  cases hnode : p.nodes[n]? with
  | none => rw [hnode] at hm; cases hm
  | some node =>
    rw [hnode] at hm
    cases node with
    | look l next =>
      simp only [Option.elim_some, Node.moves] at hm ⊢
      split at hm
      · rename_i hl
        rwa [if_pos (h l hl)]
      · cases hm
    | accept => exact hm
    | read s next => exact hm
    | fork nexts => exact hm
    | save slot next => exact hm

theorem exists_moves_of_not_stays {n : Nat} (h : p.stays n = false) (hn : n < p.nodes.size) :
    ∃ next, ∀ passes, p.moves passes n = [next] := by
  unfold stays at h
  unfold moves
  rw [Array.getElem?_eq_getElem hn] at h ⊢
  cases hnode : p.nodes[n] with
  | save slot next => exact ⟨next, fun _ => rfl⟩
  | accept => rw [hnode] at h; cases h
  | read s next => rw [hnode] at h; cases h
  | look l next => rw [hnode] at h; cases h
  | fork nexts => rw [hnode] at h; cases h

theorem found_eq_none_of_mem_visits (h : ∀ l, passes l = true → passes' l = true)
    {rest : List Nat} {n m : Nat} (hn : p.found passes' hit n = none)
    (hm : m ∈ p.visits passes rest n) : p.found passes' hit m = none := by
  induction rest, n using visits.induct with
  | case1 rest n hmem ih =>
    obtain ⟨-, rfl | ⟨k, hk, hmk⟩⟩ := mem_visits_iff.mp hm
    · exact hn
    · exact ih k (found_eq_none_of_mem_moves hn (moves_subset h hk)) hmk
  | case2 rest n hmem => exact absurd (mem_visits_iff.mp hm).1 hmem

/-- What a thread that stays at a node will find from there. -/
def awaited (p : Program) (passes : Look → Bool) (hit : Nat → Option β) (n : Nat) : Option β :=
  if p.stays n then p.found passes hit n else none

/-- A search finds the first hit from the first node at which a thread stays. -/
theorem findSome?_awaited (hhit : p.HitsStays hit) {rest : List Nat} {n : Nat} {b : β}
    (hrest : (p.visits passes' rest n).findSome? hit = some b)
    (hfound : p.found passes' hit n = some b) :
    (p.visits passes rest n).findSome? (p.awaited passes' hit) = some b := by
  induction rest, n using visits.induct with
  | case1 rest n hn ih =>
    rw [findSome?_visits hn, awaited]
    cases hstays : p.stays n with
    | true => rw [if_pos rfl, hfound, Option.some_or]
    | false =>
      have hlt : n < p.nodes.size := by
        refine Nat.lt_of_not_le fun hle => ?_
        rw [found_of_size_le hhit hle] at hfound
        cases hfound
      obtain ⟨next, hnext⟩ := exists_moves_of_not_stays hstays hlt
      have hnone := hhit n hstays
      rw [findSome?_visits hn, hnone, hnext, List.flatMap_singleton, Option.none_or] at hrest
      rw [found_eq_of_moves (hnext _) hnone] at hfound
      rw [if_neg Bool.false_ne_true, hnext, List.flatMap_singleton, Option.none_or]
      exact ih next hrest hfound
  | case2 rest n hn =>
    rw [visits, if_neg hn] at hrest
    cases hrest

theorem found_awaited (hhit : p.HitsStays hit) (h : ∀ l, passes l = true → passes' l = true)
    (n : Nat) : p.found passes (p.awaited passes' hit) n = p.found passes' hit n := by
  cases hfound : p.found passes' hit n with
  | some b => exact findSome?_awaited hhit hfound hfound
  | none =>
    refine List.findSome?_eq_none_iff.mpr fun m hm => ?_
    rw [awaited, found_eq_none_of_mem_visits h hfound hm]
    exact ite_self _

theorem awaited_hitsStays : p.HitsStays (p.awaited passes' hit) := by
  intro n hn
  rw [awaited, hn, if_neg Bool.false_ne_true]

theorem findSome?_spread_found (hhit : p.HitsStays hit)
    (threads : List Thread) :
    (p.spread passes here threads).findSome? (fun t => hit t.node) =
      threads.findSome? fun t => p.found passes hit t.node := by
  rw [findSome?_spread hhit, findSome?_flatMap, List.findSome?_map]
  rfl

/-- Threads that set out once more find what they would have found at once. -/
theorem findSome?_spread_spread (hhit : p.HitsStays hit)
    (h : ∀ l, passes l = true → passes' l = true) (threads : List Thread) :
    (p.spread passes' here (p.spread passes here threads)).findSome? (fun t => hit t.node) =
      threads.findSome? fun t => p.found passes' hit t.node := by
  have hstay (t : Thread) (ht : t ∈ p.spread passes here threads) :
      p.found passes' hit t.node = p.awaited passes' hit t.node := by
    rw [awaited]
    rcases mem_spreadFrom ht with hstays | hle
    · rw [if_pos hstays]
    · rw [found_of_size_le hhit hle, ite_self]
  calc (p.spread passes' here (p.spread passes here threads)).findSome? (fun t => hit t.node)
      = (p.spread passes here threads).findSome? (fun t => p.found passes' hit t.node) :=
        findSome?_spread_found hhit _
    _ = (p.spread passes here threads).findSome? (fun t => p.awaited passes' hit t.node) :=
        findSome?_congr hstay
    _ = threads.findSome? (fun t => p.found passes (p.awaited passes' hit) t.node) :=
        findSome?_spread_found awaited_hitsStays _
    _ = threads.findSome? fun t => p.found passes' hit t.node := by
        simp only [found_awaited hhit h]

/-- Where no thread waits at an assertion that holds, nothing changes. -/
theorem spreadFrom_congr {fuel : Nat} {threads : List Thread} {seen : NodeSet}
    (hlooks : ∀ t ∈ p.spreadFrom passes here fuel threads seen, ∀ l next,
      p.nodes[t.node]? = some (.look l next) → passes' l = passes l) :
    p.spreadFrom passes' here fuel threads seen = p.spreadFrom passes here fuel threads seen := by
  fun_induction spreadFrom p passes here fuel threads seen with
  | case1 => rfl
  | case2 fuel seen hfuel =>
    cases fuel with
    | zero => exact absurd rfl hfuel
    | succ fuel => rfl
  | case3 fuel t waiting seen hseen ih =>
    rw [spreadFrom, if_pos hseen]
    exact ih hlooks
  | case4 fuel t waiting seen hseen seen' nexts hnode ih =>
    rw [spreadFrom, if_neg hseen, hnode]
    exact congrArg _ (ih fun t ht => hlooks t (List.mem_cons_of_mem _ ht))
  | case5 fuel t waiting seen hseen seen' l next hnode waiting' ih =>
    have hl := hlooks t (List.mem_cons_self ..) l next hnode
    rw [spreadFrom, if_neg hseen, hnode]
    dsimp only
    rw [hl]
    exact congrArg _ (ih fun t ht => hlooks t (List.mem_cons_of_mem _ ht))
  | case6 fuel t waiting seen hseen seen' slot next hnode ih =>
    rw [spreadFrom, if_neg hseen, hnode]
    exact ih hlooks
  | case7 fuel t waiting seen hseen seen' hfork hlook hsave ih =>
    rw [spreadFrom, if_neg hseen]
    dsimp only
    split
    · rename_i nexts hnode
      exact (hfork nexts hnode).elim
    · rename_i l next hnode
      exact (hlook l next hnode).elim
    · rename_i slot next hnode
      exact (hsave slot next hnode).elim
    · exact congrArg _ (ih fun t ht => hlooks t (List.mem_cons_of_mem _ ht))

/-- Whenever assertions are asked, the threads at a position find first what backtracking finds
first. -/
theorem findSome?_settle (hhit : p.HitsStays hit) (timing : Timing) (t : Text)
    (i : Nat) (threads : List Thread) :
    (p.settle timing t i (p.arrive timing t i threads)).findSome? (fun t => hit t.node) =
      threads.findSome? fun th => p.found (·.holds t i) hit th.node := by
  cases timing with
  | eager => exact findSome?_spread_found hhit threads
  | late =>
    have hbehind (l : Look) (hl : l.holdsBehind t i = true) : l.holds t i = true :=
      Look.holds_of_holdsBehind hl
    rw [arrive, settle]
    split
    · exact findSome?_spread_spread hhit hbehind threads
    · rename_i hnone
      have hnot : ∀ th ∈ p.spread (·.holdsBehind t i) i threads, p.isReleased t i th ≠ true :=
        fun th hth hrel => hnone ⟨rfl, List.any_eq_true.mpr ⟨th, hth, hrel⟩⟩
      have hspread : p.spread (·.holds t i) i threads = p.spread (·.holdsBehind t i) i threads := by
        refine spreadFrom_congr fun th hth l next hnode => ?_
        have hth := hnot th hth
        unfold isReleased at hth
        rw [hnode] at hth
        cases hbeh : l.holdsBehind t i with
        | true => exact hbehind l hbeh
        | false => simpa [hbeh] using hth
      rw [← findSome?_spread_found hhit, hspread]

end later

end Program
end Tinct.Regex
