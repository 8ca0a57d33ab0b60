import Mathlib.Data.List.MinMax
import Tinct.Proofs.Grammar.Arena
import Tinct.Proofs.Regex.Leftmost
import Tinct.Proofs.Scan.Recall

/-!
# What comes next, searched for afresh

The next step of a scan is decided by searches that remember their answers, are left out where an
answer is settled, and are repeated where an empty begin is blocked. Here is the same decision made
of searches that all start at the position of the scan and are forgotten:

* `ends`, `begins`, `illegals`: everything that is found from the position on;
* `arbitrate`: the step that the earliest of it decides;
* `nextStep_eq_arbitrate`: both decisions are the same in every state that a scan comes to.
-/

namespace Tinct.Scan

/-! ## The decision -/

/-- The innermost frame, and those around it as long as each of them ends with the next. -/
def closable : List Frame → List Frame
  | [] => []
  | f :: fs => f :: if f.mode.flags.endsWithParent then closable fs else []

/-- The ends of the regions that may close, with their levels. -/
def ends (t : Text) (s : State) : List (Nat × Span) :=
  (closable s.frames).zipIdx.filterMap fun (f, level) =>
    (f.finish.bind (·.find? t s.position true)).map (level, ·)

/-- Where a mode begins from `i` on. An empty begin at `i` itself is passed over if it is
blocked. -/
def findUnblocked? (m : Matcher) (t : Text) (i : Nat) (blocked : Bool) : Option Span :=
  let found := m.find? t i true
  if found = some ⟨i, i⟩ ∧ blocked then
    if i < t.size then m.find? t (i + 1) true else none
  else found

/-- The begins of all variants of all modes that the innermost mode contains, in order. A mode that
has begun with an empty match at the position does not do so again. -/
def begins (g : Grammar) (t : Text) (s : State) : List (Nat × Nat × Span) :=
  (candidates g s.top.mode).filterMap fun (id, index, m) =>
    (findUnblocked? m t s.position (s.emptyBegins.contains s.position id)).map (id, index, ·)

/-- The illegal sequences of the innermost mode and of the grammar. -/
def illegals (g : Grammar) (t : Text) (s : State) : List Nat :=
  [s.top.mode.illegal, g.illegal].filterMap fun m? =>
    (m?.bind (·.find? t s.position false)).map (·.start)

/-- Which of the first end, the first illegal sequence and the first begin decides. An illegal
sequence does at or before both others. At the same start an end comes before a begin, unless the
innermost mode prefers to go on. -/
def decideFirst (continues : Bool) (finish : Option (Nat × Span)) (illegal : Option Nat)
    (begin : Option (Nat × Nat × Span)) : Step :=
  let stops := illegal.filter fun i =>
    finish.all (i ≤ ·.2.start) && begin.all (i ≤ ·.2.2.start)
  match stops, finish, begin with
  | some i, _, _ => .illegal i
  | none, none, none => .done
  | none, some (level, e), none => .finish level e
  | none, none, some (id, index, b) => .begin id index b
  | none, some (level, e), some (id, index, b) =>
    if b.start < e.start then .begin id index b
    else if b.start = e.start ∧ continues then .begin id index b
    else .finish level e

/-- The next step. The first of several findings is the one with the least start; at the same start
it is the innermost end, and the begin that is listed first. -/
def arbitrate (g : Grammar) (t : Text) (s : State) : Step :=
  decideFirst s.top.mode.flags.preferContinuation ((ends t s).argmin (·.2.start))
    (illegals g t s).min? ((begins g t s).argmin (·.2.2.start))

/-! ### What is remembered plays no part -/

theorem closable_map_forget (fs : List Frame) :
    closable (fs.map Frame.forget) = (closable fs).map Frame.forget := by
  induction fs with
  | nil => rfl
  | cons f fs ih =>
    rw [List.map_cons, closable, closable, List.map_cons, ih]
    rw [apply_ite (List.map Frame.forget)]
    rfl

theorem ends_forget (t : Text) (s : State) : ends t s.forget = ends t s := by
  rw [ends, State.forget_frames, closable_map_forget, List.zipIdx_map, List.filterMap_map]
  rfl

theorem begins_forget (g : Grammar) (t : Text) (s : State) : begins g t s.forget = begins g t s :=
  rfl

theorem illegals_forget (g : Grammar) (t : Text) (s : State) :
    illegals g t s.forget = illegals g t s := rfl

theorem arbitrate_forget (g : Grammar) (t : Text) (s : State) :
    arbitrate g t s.forget = arbitrate g t s := by
  rw [arbitrate, ends_forget, begins_forget, illegals_forget]
  rfl

/-! ## The searches -/

theorem Cache.find_eq {t : Text} {m : Matcher} {allowEmpty : Bool} {c : Cache} {i : Nat}
    (h : c.Recalls t m allowEmpty) :
    (c.find m t i allowEmpty).1 = m.find? t i allowEmpty := by
  unfold find
  split
  · rename_i hstands
    obtain ⟨j, hj, hji, hahead⟩ := stands_iff.mp hstands
    have hold := m.isFirst_find? t allowEmpty j
    rw [← h j hj] at hold
    exact (hold.later hji hahead).unique (m.isFirst_find? t allowEmpty i)
  · rfl

section best
variable {α β : Type} (key : α → Span)

/-- The best of some candidates and the best one so far. -/
def bestOf (best : Option α) (as : List α) : Option α :=
  as.foldl (fun best a => better key best (some a)) best

/-- The best of some candidates is the first of those with the least start. -/
theorem bestOf_none (as : List α) : bestOf key none as = as.argmin fun a => (key a).start := by
  have hstep : (fun best a => better key best (some a)) =
      List.argAux fun b c => (key b).start < (key c).start := by
    funext best a
    cases best with
    | none => rfl
    | some b => simp [better, earlier, List.argAux]
  rw [bestOf, hstep]
  rfl

theorem bestOf_filterMap_cons (f : β → Option α) (best : Option α) (b : β) (bs : List β) :
    bestOf key best ((b :: bs).filterMap f) =
      bestOf key (better key best (f b)) (bs.filterMap f) := by
  cases hb : f b with
  | none => rw [List.filterMap_cons_none hb]; rfl
  | some a => rw [List.filterMap_cons_some hb]; rfl

/-- Nothing comes before a candidate at `i` where all start at `i` or later. -/
theorem bestOf_settled {i : Nat} {best : Option α} {as : List α}
    (hbest : best.any (fun a => (key a).start == i) = true) (h : ∀ a ∈ as, i ≤ (key a).start) :
    bestOf key best as = best := by
  cases best with
  | none => cases hbest
  | some b =>
    have hb : (key b).start = i := eq_of_beq hbest
    induction as with
    | nil => rfl
    | cons a as ih =>
      obtain ⟨ha, has⟩ := List.forall_mem_cons.mp h
      have hlt : ¬(key a).start < (key b).start := by omega
      rw [bestOf, List.foldl_cons, better, if_neg (by simpa [earlier] using hlt)]
      exact ih has

end best

section searches
variable {g : Grammar} {t : Text} {i : Nat}

theorem Frame.askEnd_eq {f : Frame} (h : f.Recalls g t) :
    (f.askEnd t i).1 = f.finish.bind (·.find? t i true) := by
  unfold Frame.askEnd
  cases hm : f.finish with
  | none => rfl
  | some m => exact Cache.find_eq (h.finish m hm)

theorem findEnd_eq {fs : List Frame} (h : ∀ f ∈ fs, f.Recalls g t) (level : Nat)
    (best : Option (Nat × Span)) :
    (findEnd t i level best fs).1 = bestOf (·.2) best (((closable fs).zipIdx level).filterMap
      fun (f, level) => (f.finish.bind (·.find? t i true)).map (level, ·)) := by
  induction fs generalizing level best with
  | nil => rw [findEnd]; rfl
  | cons f fs ih =>
    obtain ⟨hf, hrest⟩ := List.forall_mem_cons.mp h
    rw [findEnd_cons, Frame.askEnd_eq hf, closable, List.zipIdx_cons, bestOf_filterMap_cons]
    dsimp only
    split
    · exact ih hrest _ _
    · rfl

theorem Cache.askBegin_eq {m : Matcher} {blocked : Bool} {c : Cache} (h : c.Recalls t m true) :
    (c.askBegin m t i blocked).1 = findUnblocked? m t i blocked := by
  have hagain := Cache.find_eq (i := i + 1) (Cache.find_recalls (i := i) h)
  unfold Cache.askBegin findUnblocked?
  dsimp only
  rw [Cache.find_eq h]
  split
  · split
    · exact hagain
    · rfl
  · rfl

theorem findUnblocked?_start {m : Matcher} {blocked : Bool} {s : Span}
    (h : findUnblocked? m t i blocked = some s) : i ≤ s.start := by
  unfold findUnblocked? at h
  dsimp only at h
  split at h
  · split at h
    · exact Nat.le_of_succ_le (Matcher.find?_bounds h).1
    · cases h
  · exact (Matcher.find?_bounds h).1

/-- The candidates left out behind a begin at the position itself could not have come before it. -/
theorem findBegin_eq {blocked : Nat → Bool} {cs : List (Nat × Nat × Matcher)}
    {caches : List Cache} (h : CandidatesRecall t cs caches) (best : Option (Nat × Nat × Span)) :
    (findBegin t i blocked best cs caches).1 = bestOf (·.2.2) best (cs.filterMap
      fun (id, index, m) => (findUnblocked? m t i (blocked id)).map (id, index, ·)) := by
  induction cs generalizing best caches with
  | nil => rw [findBegin]; rfl
  | cons c cs ih =>
    obtain ⟨id, index, m⟩ := c
    rw [findBegin_cons, bestOf_filterMap_cons]
    dsimp only
    rw [Cache.askBegin_eq h.head]
    split
    · rename_i hsettled
      refine (bestOf_settled _ hsettled fun a ha => ?_).symm
      obtain ⟨c, -, hc⟩ := List.mem_filterMap.mp ha
      obtain ⟨s, hs, rfl⟩ := Option.map_eq_some_iff.mp hc
      exact findUnblocked?_start hs
    · exact ih h.tail _

theorem Cache.askIllegal_eq {m? : Option Matcher} {c : Cache}
    (h : ∀ m, m? = some m → c.Recalls t m false) :
    (c.askIllegal m? t i).1 = m?.bind (·.find? t i false) := by
  cases m? with
  | none => rfl
  | some m => exact Cache.find_eq (h m rfl)

theorem min?_starts (found : Option Matcher → Option Span) (a b : Option Matcher) :
    ([a, b].filterMap fun m? => (found m?).map (·.start)).min? =
      firstStart (found a) (found b) := by
  simp only [List.filterMap_cons, List.filterMap_nil]
  cases found a <;> cases found b <;> rfl

theorem firstStart_self (a : Option Span) : firstStart a a = firstStart a none := by
  cases a with
  | none => rfl
  | some a => simp [firstStart]

end searches

theorem choose_eq (continues : Bool) (finish : Option (Nat × Span)) (illegal : Option Nat)
    (begin : Option (Nat × Nat × Span)) :
    choose continues finish illegal begin = decideFirst continues finish illegal begin := by
  have hstops :
      (illegal.filter fun i => begin.all (i ≤ ·.2.2.start) && finish.all (i ≤ ·.2.start)) =
        illegal.filter fun i => finish.all (i ≤ ·.2.start) && begin.all (i ≤ ·.2.2.start) := by
    simp only [Bool.and_comm]
  unfold choose decideFirst
  dsimp only
  rw [hstops]
  generalize (illegal.filter fun i =>
    finish.all (i ≤ ·.2.start) && begin.all (i ≤ ·.2.2.start)) = stops
  rcases stops with _ | i
  · rcases finish with _ | ⟨level, e⟩ <;> rcases begin with _ | ⟨id, index, b⟩
    · rfl
    · rfl
    · rfl
    · -- both are there: the one that starts first, or what the mode prefers
      by_cases hlt : b.start < e.start
      · simp [hlt, Nat.lt_asymm hlt, Nat.ne_of_gt hlt]
      · by_cases heq : b.start = e.start
        · cases continues <;> simp [heq]
        · simp [hlt, heq, show e.start < b.start by omega]
  · rfl

/-! ## The frames of a scan -/

/-- The mode of the frame is the root of the grammar, or one that begins. -/
def Frame.Belongs (g : Grammar) (f : Frame) : Prop :=
  f.mode = g.root ∨ ∃ id, f.mode = g.mode id ∧ (g.mode id).variants ≠ []

section frames
variable {g : Grammar} {t : Text} {s : State}

theorem nextStep_belongs (h : ∀ f ∈ s.frames, f.Belongs g) :
    ∀ f ∈ (nextStep g t s).2.frames, f.Belongs g := by
  intro f hf
  have hforget : (nextStep g t s).2.frames.map Frame.forget = s.frames.map Frame.forget := by
    rw [← State.forget_frames, ← State.forget_frames, nextStep_forget]
  obtain ⟨f', hf', heq⟩ := List.mem_map.mp (hforget ▸ List.mem_map_of_mem hf)
  rw [Frame.Belongs, ← (Frame.mk.inj heq).1]
  exact h f' hf'

theorem reachable_belongs (h : Reachable g t s) : ∀ f ∈ s.frames, f.Belongs g := by
  induction h with
  | refl => exact fun f hf => .inl (by rw [List.mem_singleton.mp hf]; rfl)
  | tail _ hstep ih =>
    have hnext := nextStep_belongs (t := t) ih
    cases hstep with
    | begin hs hbegin =>
      rw [hs] at hnext
      refine State.begin_forall_frames hbegin hnext fun v finish start scope hv he => ?_
      exact .inr ⟨_, rfl, List.ne_nil_of_mem (List.mem_of_getElem? hv)⟩
    | finish hs =>
      rw [hs] at hnext
      exact State.finish_forall_frames hnext

/-- Only the root has the number of the root. -/
theorem Frame.Belongs.eq_root (hg : g.Numbered) {f : Frame} (h : f.Belongs g)
    (hroot : f.mode.isRoot = true) : f.mode = g.root := by
  obtain hmode | ⟨id, hmode, hvariants⟩ := h
  · exact hmode
  · rw [hmode, Mode.isRoot, beq_iff_eq] at hroot
    rw [hmode, Grammar.root]
    unfold Grammar.mode at hroot hvariants ⊢
    rw [Array.getD_eq_getD_getElem?] at hroot hvariants
    cases hm : g.modes[id]? with
    | none => rw [hm] at hvariants; exact absurd rfl hvariants
    | some m =>
      rw [hm, Option.getD_some, hg id m hm] at hroot
      rw [hroot]

/-! ## The next step -/

theorem askEnds_eq (hrecalls : s.Recalls g t) :
    (s.askEnds t).1 = (ends t s).argmin (·.2.start) := by
  rw [← bestOf_none (fun a : Nat × Span => a.2)]
  exact findEnd_eq hrecalls.frames 0 none

theorem askBegins_eq (hrecalls : s.Recalls g t) :
    (s.askBegins g t).1 = (begins g t s).argmin (·.2.2.start) := by
  rw [← bestOf_none (fun a : Nat × Nat × Span => a.2.2)]
  exact findBegin_eq (hrecalls.frames _ (List.mem_cons_self ..)).begins none

/-- The root has what is illegal in the grammar as its own. -/
theorem findIllegal_eq_min? (hrecalls : s.Recalls g t)
    (hroot : s.top.mode.isRoot = true → s.top.mode = g.root) :
    (findIllegal g t s).1 = (illegals g t s).min? := by
  have hown := Cache.askIllegal_eq (i := s.position)
    (hrecalls.frames _ (List.mem_cons_self ..)).illegal
  have hgeneral := Cache.askIllegal_eq (i := s.position)
    fun m (hm : around g s.top.mode = some m) => hrecalls.illegal m (eq_of_around hm)
  rw [findIllegal_eq]
  dsimp only
  rw [hown, hgeneral, illegals, min?_starts]
  unfold around
  split
  · rename_i h
    have hillegal : s.top.mode.illegal = g.illegal := by rw [hroot h]; rfl
    rw [hillegal, Option.bind_none, firstStart_self]
  · rfl

/-- In every state that a scan comes to, the next step is the one that searches from the position of
the scan decide, none of them remembered and none left out. -/
theorem nextStep_eq_arbitrate (hg : g.Numbered) (h : Reachable g t s) :
    (nextStep g t s).1 = arbitrate g t s := by
  have hrecalls := reachable_recalls h
  have hbelongs := reachable_belongs h
  -- the three searches one after the other: each leaves the state as it was but for its caches
  have hrecalls₁ := State.askEnds_recalls hrecalls
  have hforget₁ : (s.askEnds t).2.forget = s.forget := State.askEnds_forget
  have hrecalls₂ := findIllegal_recalls hrecalls₁
  have hforget₂ : (findIllegal g t (s.askEnds t).2).2.forget = s.forget :=
    findIllegal_forget.trans hforget₁
  have hforget₃ : ((findIllegal g t (s.askEnds t).2).2.askBegins g t).2.forget = s.forget :=
    State.askBegins_forget.trans hforget₂
  have hmode {s' : State} (h' : s'.forget = s.forget) : s'.top.mode = s.top.mode :=
    (Frame.mk.inj (State.mk.inj h').1).1
  have htop := hbelongs s.top (List.mem_cons_self ..)
  have hillegal := findIllegal_eq_min? hrecalls₁ fun hroot => by
    rw [hmode hforget₁] at hroot ⊢
    exact htop.eq_root hg hroot
  rw [nextStep_eq]
  dsimp only
  rw [choose_eq, askEnds_eq hrecalls, hillegal, askBegins_eq hrecalls₂,
    hmode hforget₃, ← illegals_forget, hforget₁, illegals_forget,
    ← begins_forget g t (findIllegal ..).2, hforget₂, begins_forget]
  rfl

end frames

end Tinct.Scan
