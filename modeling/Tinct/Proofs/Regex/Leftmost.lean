import Tinct.Proofs.Regex.Bounds
import Tinct.Proofs.Regex.Preference

/-!
# Leftmost matches

A search from a position is bound to the searches from other positions: there is one match for each
start at most, and every search takes the first start.

* `IsFirst.later`, `IsFirst.earlier`: what a search has found stays right as long as it lies ahead,
  and where no match starts in front of it;
* `Regex.isFirst_find?`: a search for a regular expression takes the leftmost start;
* `Matcher.isFirst_find?`: the checks behind a match do not change that.
-/

namespace Tinct

/-- The match found is the first one from position `i` on, where `stopAt` gives the end of the match
that starts at a position. -/
def IsFirst (stopAt : Nat → Option Nat) (i : Nat) : Option Span → Prop
  | none => ∀ k, i ≤ k → stopAt k = none
  | some s =>
    i ≤ s.start ∧ stopAt s.start = some s.stop ∧ ∀ k, i ≤ k → k < s.start → stopAt k = none

namespace IsFirst
variable {stopAt : Nat → Option Nat} {i j : Nat}

theorem unique {a b : Option Span} (ha : IsFirst stopAt i a) (hb : IsFirst stopAt i b) : a = b := by
  rcases a with _ | ⟨start, stop⟩ <;> rcases b with _ | ⟨start', stop'⟩
  · rfl
  · have := ha start' hb.1
    rw [hb.2.1] at this
    cases this
  · have := hb start ha.1
    rw [ha.2.1] at this
    cases this
  · obtain ⟨hi, hstop, hfront⟩ := ha
    obtain ⟨hi', hstop', hfront'⟩ := hb
    dsimp only at *
    rcases Nat.lt_trichotomy start start' with hlt | rfl | hlt
    · rw [hfront' start hi hlt] at hstop; cases hstop
    · rw [hstop] at hstop'; cases hstop'; rfl
    · rw [hfront start' hi' hlt] at hstop'; cases hstop'

/-- What has been found stays right for later positions up to its start. -/
theorem later {found : Option Span} (h : IsFirst stopAt i found) (hij : i ≤ j)
    (hahead : ∀ s, found = some s → j ≤ s.start) : IsFirst stopAt j found := by
  cases found with
  | none => exact fun k hk => h k (Nat.le_trans hij hk)
  | some s =>
    obtain ⟨-, hstop, hfront⟩ := h
    exact ⟨hahead s rfl, hstop, fun k hk => hfront k (Nat.le_trans hij hk)⟩

/-- Where no match starts from `i` up to `j`, the first one is the first one from `j` on. -/
theorem earlier {found : Option Span} (h : IsFirst stopAt j found) (hij : i ≤ j)
    (hfront : ∀ k, i ≤ k → k < j → stopAt k = none) : IsFirst stopAt i found := by
  have hall (k : Nat) (hk : i ≤ k) (hrest : j ≤ k → stopAt k = none) : stopAt k = none := by
    rcases Nat.lt_or_ge k j with hlt | hge
    · exact hfront k hk hlt
    · exact hrest hge
  cases found with
  | none => exact fun k hk => hall k hk (h k)
  | some s =>
    obtain ⟨hle, hstop, hrest⟩ := h
    exact ⟨Nat.le_trans hij hle, hstop, fun k hk hks => hall k hk fun hj => hrest k hj hks⟩

end IsFirst

namespace Regex

/-- The first of all positions in front of `n` from `i` on. -/
theorem isFirst_firstFrom (f : Nat → Option Nat) (n i : Nat) :
    IsFirst (fun k => if k < n then f k else none) i
      ((firstFrom f (n - i) i).map fun (k, stop) => ⟨k, stop⟩) := by
  cases hfirst : firstFrom f (n - i) i with
  | none =>
    intro k hk
    dsimp only
    split
    · exact firstFrom_eq_none_iff.mp hfirst k hk (by omega)
    · rfl
  | some found =>
    obtain ⟨j, stop⟩ := found
    obtain ⟨hij, hj, hstop, hfront⟩ := firstFrom_eq_some_iff.mp hfirst
    have hn : j < n := by omega
    refine ⟨hij, ?_, fun k hk hkj => ?_⟩
    · dsimp only
      rw [if_pos hn]
      exact hstop
    · have hkn : k < n := Nat.lt_trans hkj hn
      dsimp only
      rw [if_pos hkn]
      exact hfront k hk hkj

/-- The end of the preferred match that starts at a position of `t`. -/
def endAt? (r : Regex) (t : Text) (i : Nat) : Option Nat :=
  if i < t.size + 1 then (r.ends t i).head? else none

theorem isFirst_find? (r : Regex) (t : Text) (i : Nat) : IsFirst (r.endAt? t) i (r.find? t i) := by
  rw [find?_eq_firstFrom]
  exact isFirst_firstFrom (fun k => (r.ends t k).head?) (t.size + 1) i

end Regex

namespace Matcher
variable {m : Matcher} {t : Text} {allowEmpty : Bool}

/-- The end of the accepted match from a position. -/
def acceptedFrom? (m : Matcher) (t : Text) (allowEmpty : Bool) (start : Nat) : Option Nat :=
  (m.regex.endAt? t start).bind fun stop => m.acceptedEnd? t start allowEmpty (stop - start) stop

theorem acceptedFrom?_eq_none {start : Nat} (h : m.regex.endAt? t start = none) :
    m.acceptedFrom? t allowEmpty start = none := by
  rw [acceptedFrom?, h, Option.bind_none]

theorem findFrom?_isFirst {fuel start : Nat} (hfuel : t.size + 1 ≤ start + fuel) :
    IsFirst (m.acceptedFrom? t allowEmpty) start (m.findFrom? t allowEmpty fuel start) := by
  fun_induction findFrom? m t allowEmpty fuel start with
  | case1 start =>
    -- no position of the text is left
    exact fun k hk => acceptedFrom?_eq_none (if_neg (by omega))
  | case2 fuel start hnone =>
    have hfirst := m.regex.isFirst_find? t start
    rw [hnone] at hfirst
    exact fun k hk => acceptedFrom?_eq_none (hfirst k hk)
  | case3 fuel start s hs stop hstop =>
    have hfirst := m.regex.isFirst_find? t start
    rw [hs] at hfirst
    obtain ⟨hle, hend, hfront⟩ := hfirst
    refine ⟨hle, ?_, fun k hk hks => acceptedFrom?_eq_none (hfront k hk hks)⟩
    rw [acceptedFrom?, hend, Option.bind_some]
    exact hstop
  | case4 fuel start s hs hstop ih =>
    have hfirst := m.regex.isFirst_find? t start
    rw [hs] at hfirst
    obtain ⟨hle, hend, hfront⟩ := hfirst
    refine (ih (by omega)).earlier (Nat.le_succ_of_le hle) fun k hk hks => ?_
    rcases Nat.lt_or_eq_of_le (Nat.le_of_lt_succ hks) with hlt | rfl
    · exact acceptedFrom?_eq_none (hfront k hk hlt)
    · rw [acceptedFrom?, hend, Option.bind_some]
      exact hstop

/-- The search of a matcher takes the leftmost start, and the end depends on the start only. -/
theorem isFirst_find? (m : Matcher) (t : Text) (allowEmpty : Bool) (i : Nat) :
    IsFirst (m.acceptedFrom? t allowEmpty) i (m.find? t i allowEmpty) :=
  findFrom?_isFirst (by omega)

end Matcher
end Tinct
