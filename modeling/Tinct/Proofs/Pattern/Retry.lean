import Tinct.Proofs.Regex.Leftmost

/-!
# Matches tried in turn

Where the checks behind a match refuse it, a matcher tries the preferred one of those that end
before it. A backtracking search goes on with the next match in order of preference instead:

* `Regex.tried`: the ends that a matcher tries at a position;
* `Matcher.acceptedEnd?_eq`: the one accepted is the first of them at which the checks hold;
* `Matcher.backtrack?`: the match that backtracking finds;
* `Matcher.find?_eq_backtrack?_iff`: when a matcher finds that match, for checks that need not be
  its own.
-/

namespace Tinct

/-- The ends that are smaller than `bound` and all ends in front of them. -/
def shorter : Nat → List Nat → List Nat
  | _, [] => []
  | bound, e :: es => if e < bound then e :: shorter e es else shorter bound es

theorem shorter_sublist (bound : Nat) (es : List Nat) : (shorter bound es).Sublist es := by
  induction es generalizing bound with
  | nil => exact .slnil
  | cons e es ih =>
    rw [shorter]
    split
    · exact (ih e).cons_cons e
    · exact (ih bound).cons e

theorem lt_of_mem_shorter {bound : Nat} {es : List Nat} {e : Nat} (h : e ∈ shorter bound es) :
    e < bound := by
  induction es generalizing bound with
  | nil => cases h
  | cons e' es ih =>
    rw [shorter] at h
    split at h
    · rename_i hlt
      rcases List.mem_cons.mp h with rfl | h
      · exact hlt
      · exact Nat.lt_trans (ih h) hlt
    · exact ih h

theorem shorter_eq_nil {bound : Nat} {es : List Nat} (h : ∀ e ∈ es, bound ≤ e) :
    shorter bound es = [] := by
  refine List.eq_nil_iff_forall_not_mem.mpr fun e he => ?_
  have hle := h e ((shorter_sublist bound es).subset he)
  exact Nat.not_lt_of_le hle (lt_of_mem_shorter he)

/-- The first of them is the preferred one, and the others are those smaller than that. -/
theorem shorter_eq (bound : Nat) (es : List Nat) :
    shorter bound es =
      (es.find? (· < bound)).elim [] fun e => e :: shorter e es := by
  induction es with
  | nil => rfl
  | cons e es ih =>
    rw [shorter, List.find?_cons]
    by_cases hlt : e < bound
    · simp [hlt, shorter]
    · rw [if_neg hlt, decide_eq_false hlt, ih]
      cases hfind : es.find? (· < bound) with
      | none => rfl
      | some e' =>
        have hlt' := of_decide_eq_true (List.find?_some (p := (· < bound)) hfind)
        have hnot : ¬e < e' := by omega
        simp [shorter, hnot]

section first
variable {accepts checks : Nat → Bool} {bound stop e : Nat} {es : List Nat}

/-- The first match of all is always tried. -/
theorem find?_shorter_first (hstop : checks stop = true) (hbound : stop < bound) :
    (shorter bound (stop :: es)).find? accepts = some stop ↔
      ∀ e ∈ shorter bound (stop :: es), stop ≤ e → accepts e = checks e := by
  rw [shorter, if_pos hbound, List.find?_cons, List.forall_mem_cons]
  have hnot (e : Nat) (he : e ∈ shorter stop es) : ¬stop ≤ e :=
    Nat.not_le_of_lt (lt_of_mem_shorter he)
  cases haccepts : accepts stop with
  | true =>
    refine ⟨fun _ => ⟨fun _ => hstop.symm, fun e he hle => absurd hle (hnot e he)⟩, fun _ => rfl⟩
  | false =>
    refine ⟨fun hfind => ?_, fun hall => ?_⟩
    · exact absurd (Nat.le_refl stop) (hnot stop (List.mem_of_find?_eq_some hfind))
    · have := hall.1 (Nat.le_refl stop)
      rw [hstop] at this
      cases this

/-- A match that ends earlier hides the one in question. -/
theorem find?_shorter_of_lt (hlt : e < stop) (hbound : e < bound) :
    (shorter bound (e :: es)).find? accepts ≠ some stop := by
  rw [shorter, if_pos hbound, List.find?_cons]
  cases accepts e with
  | true => exact fun hfind => Nat.ne_of_lt hlt (Option.some.inj hfind)
  | false =>
    intro hfind
    exact Nat.lt_asymm hlt (lt_of_mem_shorter (List.mem_of_find?_eq_some hfind))

/-- A match that ends later is passed over where it is refused. -/
theorem find?_shorter_of_gt (hlt : stop < e) (hbound : e < bound) :
    (shorter bound (e :: es)).find? accepts = some stop ↔
      accepts e = false ∧ (shorter e es).find? accepts = some stop := by
  rw [shorter, if_pos hbound, List.find?_cons]
  cases accepts e with
  | true =>
    refine ⟨fun hfind => ?_, fun hall => ?_⟩
    · exact absurd (Option.some.inj hfind) (Nat.ne_of_gt hlt)
    · cases hall.1
  | false => exact ⟨fun hfind => ⟨rfl, hfind⟩, fun hall => hall.2⟩

/-- Whether the first match tried that `accepts` takes is the first of all matches that `checks`
takes: all matches preferred to it end later, and both tell the same of those that are tried up to
it. -/
theorem find?_shorter_eq_some_iff (h : es.find? checks = some stop) (hbound : stop < bound) :
    (shorter bound es).find? accepts = some stop ↔
      (∀ e ∈ es.takeWhile (· != stop), stop < e) ∧
        ∀ e ∈ shorter bound es, stop ≤ e → accepts e = checks e := by
  have hstop : checks stop = true := List.find?_some h
  induction es generalizing bound with
  | nil => cases h
  | cons e es ih =>
    rw [List.find?_cons] at h
    cases he : checks e with
    | true =>
      rw [he] at h
      cases h
      rw [find?_shorter_first hstop hbound, List.takeWhile_cons, bne_self_eq_false]
      exact ⟨fun hall => ⟨nofun, hall⟩, fun hall => hall.2⟩
    | false =>
      rw [he] at h
      have hne : e ≠ stop := fun heq => by rw [heq, hstop] at he; cases he
      rw [List.takeWhile_cons, bne_iff_ne.mpr hne, if_pos rfl, List.forall_mem_cons]
      rcases Nat.lt_or_ge e bound with hlt | hge
      · rcases Nat.lt_or_gt_of_ne hne with hless | hmore
        · exact ⟨fun hfind => absurd hfind (find?_shorter_of_lt hless hlt),
            fun hall => absurd hall.1.1 (Nat.lt_asymm hless)⟩
        · have hrest : (shorter e es).find? accepts = some stop ↔ _ := ih h hmore
          rw [find?_shorter_of_gt hmore hlt, hrest, shorter, if_pos hlt, List.forall_mem_cons, he]
          exact ⟨fun hall => ⟨⟨hmore, hall.2.1⟩, fun _ => hall.1, hall.2.2⟩,
            fun hall => ⟨hall.2.1 (Nat.le_of_lt hmore), hall.1.2, hall.2.2⟩⟩
      · have hrest : (shorter bound es).find? accepts = some stop ↔ _ := ih h hbound
        rw [shorter, if_neg (Nat.not_lt_of_le hge), hrest]
        have hmore : stop < e := Nat.lt_of_lt_of_le hbound hge
        exact ⟨fun hall => ⟨⟨hmore, hall.1⟩, hall.2⟩, fun hall => ⟨hall.1.2, hall.2⟩⟩

/-- No match tried is taken where none of all matches is, as long as both tell the same of those
that are tried. -/
theorem find?_shorter_eq_none_iff (h : es.find? checks = none) :
    (shorter bound es).find? accepts = none ↔
      ∀ e ∈ shorter bound es, accepts e = checks e := by
  have hnone (e : Nat) (he : e ∈ shorter bound es) : checks e = false :=
    Bool.eq_false_iff.mpr (List.find?_eq_none.mp h e ((shorter_sublist bound es).subset he))
  rw [List.find?_eq_none]
  refine forall₂_congr fun e he => ?_
  rw [hnone e he, Bool.not_eq_true]

end first

/-! ## Searching -/

/-- The ends that a matcher tries at a position: that of the preferred match, then that of the
preferred one of those that end before it, and so on. -/
def Regex.tried (r : Regex) (t : Text) (i : Nat) : List Nat := shorter (t.size + 1) (r.ends t i)

namespace Matcher
variable {m : Matcher} {t : Text}

theorem acceptedEnd?_of_holds {fuel start stop : Nat} (h : m.followsHold t stop = true) :
    m.acceptedEnd? t start true fuel stop = some stop := by
  unfold acceptedEnd?
  rw [Bool.true_or, Bool.true_and, if_pos h]

/-- No match ends in front of its start. -/
theorem acceptedEnd?_start (fuel : Nat) {start : Nat} (h : start ≤ t.size) :
    m.acceptedEnd? t start true fuel start =
      (start :: shorter start (m.regex.ends t start)).find? (m.followsHold t) := by
  rw [shorter_eq_nil fun e he => (Regex.ends_bounds he h).1, List.find?_singleton]
  unfold acceptedEnd?
  simp

theorem acceptedEnd?_succ {fuel start stop : Nat} (h : m.followsHold t stop = false)
    (hstart : start < stop) :
    m.acceptedEnd? t start true (fuel + 1) stop =
      (m.regex.endFrom? t (stop - 1) start).bind (m.acceptedEnd? t start true fuel) := by
  have hfollows : m.follows.isEmpty = false := by
    cases hm : m.follows with
    | nil => rw [followsHold, hm] at h; cases h
    | cons f fs => rfl
  have hlast : ¬(m.follows.isEmpty || decide (stop ≤ start)) = true := by
    rw [hfollows, Bool.false_or, decide_eq_true_eq]
    exact Nat.not_le_of_lt hstart
  rw [acceptedEnd?.eq_def]
  dsimp only
  rw [Bool.true_or, Bool.true_and, h, if_neg Bool.false_ne_true, if_neg hlast]

/-- The match accepted is the first one tried at which the checks hold. -/
theorem acceptedEnd?_eq {fuel start stop : Nat} (hstart : start ≤ stop) (hstop : stop ≤ t.size)
    (hfuel : stop - start ≤ fuel) :
    m.acceptedEnd? t start true fuel stop =
      (stop :: shorter stop (m.regex.ends t start)).find? (m.followsHold t) := by
  induction fuel generalizing stop with
  | zero =>
    obtain rfl : start = stop := by omega
    exact acceptedEnd?_start 0 hstop
  | succ fuel ih =>
    rcases Nat.eq_or_lt_of_le hstart with rfl | hlt
    · exact acceptedEnd?_start (fuel + 1) hstop
    rw [List.find?_cons]
    cases hholds : m.followsHold t stop with
    | true => exact acceptedEnd?_of_holds hholds
    | false =>
      have hbefore : (fun e => decide (e ≤ stop - 1)) = fun e => decide (e < stop) := by
        funext e
        exact decide_eq_decide.mpr (by omega)
      rw [acceptedEnd?_succ hholds hlt, m.regex.endFrom?_eq (by omega) (by omega), hbefore,
        shorter_eq]
      cases hfind : (m.regex.ends t start).find? (· < stop) with
      | none => rfl
      | some e =>
        have hmem := Regex.ends_bounds (List.mem_of_find?_eq_some hfind) (by omega)
        have he := of_decide_eq_true (List.find?_some (p := (· < stop)) hfind)
        exact ih hmem.1 hmem.2 (by omega)

/-- A matcher accepts the first of the ends tried at a position at which its checks hold. -/
theorem acceptedFrom?_eq (m : Matcher) {start : Nat} (h : start ≤ t.size) :
    m.acceptedFrom? t true start = (m.regex.tried t start).find? (m.followsHold t) := by
  rw [acceptedFrom?, Regex.endAt?, if_pos (Nat.lt_succ_of_le h), Regex.tried, shorter_eq,
    ← Regex.find?_ends_le_size h]
  have hwithin : (fun e => decide (e ≤ t.size)) = fun e => decide (e < t.size + 1) := by
    funext e
    exact decide_eq_decide.mpr (by omega)
  rw [hwithin]
  cases hfind : (m.regex.ends t start).find? (· < t.size + 1) with
  | none => rfl
  | some stop =>
    have hmem := Regex.ends_bounds (List.mem_of_find?_eq_some hfind) h
    exact acceptedEnd?_eq hmem.1 hmem.2 (Nat.le_refl _)

/-- The end of the first match from position `i`, in order of preference, with the checks behind
it. -/
def backtrackAt? (m : Matcher) (t : Text) (i : Nat) : Option Nat :=
  (m.regex.ends t i).find? (m.followsHold t)

/-- The match that a backtracking search finds from `start` on: the first such match from the first
position that has one. -/
def backtrack? (m : Matcher) (t : Text) (start : Nat) : Option Span :=
  (Regex.firstFrom (m.backtrackAt? t) (t.size + 1 - start) start).map fun (i, stop) => ⟨i, stop⟩

theorem backtrack?_eq_none_iff {start : Nat} :
    m.backtrack? t start = none ↔ ∀ i, start ≤ i → i ≤ t.size → m.backtrackAt? t i = none := by
  rw [backtrack?, Option.map_eq_none_iff, Regex.firstFrom_eq_none_iff]
  refine forall₂_congr fun i hi => ?_
  rw [show i < start + (t.size + 1 - start) ↔ i ≤ t.size by omega]

/-- Backtracking takes the first position that has a match with the checks behind it. -/
theorem backtrack?_eq_some_iff {start : Nat} {s : Span} :
    m.backtrack? t start = some s ↔ start ≤ s.start ∧ s.start ≤ t.size ∧
      m.backtrackAt? t s.start = some s.stop ∧
      ∀ i, start ≤ i → i < s.start → m.backtrackAt? t i = none := by
  obtain ⟨first, stop⟩ := s
  have hpair : m.backtrack? t start = some ⟨first, stop⟩ ↔
      Regex.firstFrom (m.backtrackAt? t) (t.size + 1 - start) start = some (first, stop) := by
    rw [backtrack?, Option.map_eq_some_iff]
    constructor
    · rintro ⟨⟨i, e⟩, hfirst, heq⟩
      cases heq
      exact hfirst
    · exact fun hfirst => ⟨_, hfirst, rfl⟩
  rw [hpair, Regex.firstFrom_eq_some_iff]
  refine and_congr_right fun hstart => ?_
  rw [show first < start + (t.size + 1 - start) ↔ first ≤ t.size by omega]

section agreement
variable {w : Matcher}

/-- Nothing is accepted at a position from which backtracking finds nothing, exactly when the checks
tell the same there. -/
theorem acceptedFrom?_eq_none_iff (h : w.regex = m.regex) {i : Nat} (hi : i ≤ t.size)
    (hnone : w.backtrackAt? t i = none) :
    m.acceptedFrom? t true i = none ↔
      ∀ e ∈ w.regex.tried t i, m.followsHold t e = w.followsHold t e := by
  rw [acceptedFrom?_eq m hi, ← h]
  exact find?_shorter_eq_none_iff hnone

theorem acceptedFrom?_eq_some_iff (h : w.regex = m.regex) {i stop : Nat} (hi : i ≤ t.size)
    (hsome : w.backtrackAt? t i = some stop) :
    m.acceptedFrom? t true i = some stop ↔
      (∀ e ∈ (w.regex.ends t i).takeWhile (· != stop), stop < e) ∧
        ∀ e ∈ w.regex.tried t i, stop ≤ e → m.followsHold t e = w.followsHold t e := by
  have hbounds := Regex.ends_bounds (List.mem_of_find?_eq_some hsome) hi
  rw [acceptedFrom?_eq m hi, ← h]
  exact find?_shorter_eq_some_iff hsome (Nat.lt_succ_of_le hbounds.2)

/-- A matcher finds what backtracking finds with the checks of another matcher, exactly when

* every match preferred to the one found by backtracking, at the same start, ends later, and
* both checks tell the same at all ends tried up to there: those from earlier positions, and those
  from the same position that are not smaller. -/
theorem find?_eq_backtrack?_iff (h : w.regex = m.regex) (t : Text) (start : Nat) :
    m.find? t start true = w.backtrack? t start ↔
      (∀ s, w.backtrack? t start = some s →
        ∀ e ∈ (w.regex.ends t s.start).takeWhile (· != s.stop), s.stop < e) ∧
      ∀ i, start ≤ i → i ≤ t.size → ∀ e ∈ w.regex.tried t i,
        (∀ s, w.backtrack? t start = some s → i < s.start ∨ i = s.start ∧ s.stop ≤ e) →
          m.followsHold t e = w.followsHold t e := by
  have hiff : m.find? t start true = w.backtrack? t start ↔
      IsFirst (m.acceptedFrom? t true) start (w.backtrack? t start) :=
    ⟨fun heq => heq ▸ m.isFirst_find? t true start, (m.isFirst_find? t true start).unique⟩
  have houtside {i : Nat} (hi : ¬i ≤ t.size) : m.acceptedFrom? t true i = none :=
    acceptedFrom?_eq_none (if_neg fun hlt => hi (Nat.le_of_lt_succ hlt))
  rw [hiff]
  cases hfound : w.backtrack? t start with
  | none =>
    have hnone := backtrack?_eq_none_iff.mp hfound
    refine ⟨fun hall => ⟨nofun, fun i hi hsize e he _ => ?_⟩, fun ⟨_, hagree⟩ i hi => ?_⟩
    · exact (acceptedFrom?_eq_none_iff h hsize (hnone i hi hsize)).mp (hall i hi) e he
    · by_cases hsize : i ≤ t.size
      · refine (acceptedFrom?_eq_none_iff h hsize (hnone i hi hsize)).mpr fun e he => ?_
        exact hagree i hi hsize e he nofun
      · exact houtside hsize
  | some s =>
    obtain ⟨hstart, hsize, hstop, hnone⟩ := backtrack?_eq_some_iff.mp hfound
    have hhere := acceptedFrom?_eq_some_iff h hsize hstop
    constructor
    · rintro ⟨-, haccepted, hbefore⟩
      obtain ⟨hlater, hagree⟩ := hhere.mp haccepted
      refine ⟨fun s' hs' => Option.some.inj hs' ▸ hlater, fun i hi hisize e he hupto => ?_⟩
      rcases hupto s rfl with his | ⟨rfl, hle⟩
      · exact (acceptedFrom?_eq_none_iff h hisize (hnone i hi his)).mp (hbefore i hi his) e he
      · exact hagree e he hle
    · intro ⟨hlater, hagree⟩
      refine ⟨hstart, hhere.mpr ⟨hlater s rfl, fun e he hle => ?_⟩, fun i hi his => ?_⟩
      · refine hagree s.start hstart hsize e he fun s' hs' => ?_
        cases hs'
        exact .inr ⟨rfl, hle⟩
      · have hisize : i ≤ t.size := by omega
        refine (acceptedFrom?_eq_none_iff h hisize (hnone i hi his)).mpr fun e he => ?_
        refine hagree i hi hisize e he fun s' hs' => ?_
        cases hs'
        exact .inl his

end agreement

end Matcher
end Tinct
