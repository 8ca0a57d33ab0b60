import Tinct.Proofs.Regex.Leftmost
import Tinct.Proofs.Regex.Recording

/-!
# Captures of accepted matches

A matcher looks at the preferred match from a position and, as long as its checks refuse it, at the
preferred one of those that end before it. What the groups of the accepted match hold is asked for
in a search of its own, which comes to the same match:

* `Matcher.LooksAt`: the matches that a matcher looks at;
* `Matcher.exists_looksAt_of_find?`: one of them is accepted;
* `Matcher.captures_of_looksAt`: its captures are what it has recorded.
-/

namespace Tinct.Matcher
variable {m : Matcher} {t : Text} {allowEmpty : Bool} {start stop : Nat} {f : Regex.Finish}

/-- Whether a matcher accepts a match from `start` that ends at `stop`. -/
def accepts (m : Matcher) (t : Text) (allowEmpty : Bool) (start stop : Nat) : Bool :=
  (allowEmpty || start < stop) && m.followsHold t stop

/-- A matcher looks at the preferred match from a position and, behind one that it refuses, at the
preferred one of those that end before it. -/
inductive LooksAt (m : Matcher) (t : Text) (allowEmpty : Bool) (start : Nat) : Regex.Finish → Prop
  | preferred {f : Regex.Finish} (h : (m.regex.finishes t start).head? = some f) :
    LooksAt m t allowEmpty start f
  | shorter {f f' : Regex.Finish} (h : LooksAt m t allowEmpty start f)
    (hrefused : m.accepts t allowEmpty start f.stop = false)
    (hnext : (m.regex.finishes t start).find? (·.stop < f.stop) = some f') :
    LooksAt m t allowEmpty start f'

/-- To end in front of a position is to end at the one before it at the latest. -/
theorem find?_stop_lt {fs : List Regex.Finish} (h : 0 < stop) :
    fs.find? (·.stop < stop) = fs.find? (·.stop ≤ stop - 1) := by
  congr 1
  funext f
  exact decide_eq_decide.mpr (by omega)

namespace LooksAt

/-- What a matcher looks at is the preferred one of all matches that end where it does or before. -/
theorem find? (h : m.LooksAt t allowEmpty start f) :
    (m.regex.finishes t start).find? (·.stop ≤ f.stop) = some f := by
  cases h with
  | preferred h =>
    obtain ⟨fs, hfs⟩ := List.head?_eq_some_iff.mp h
    rw [hfs, List.find?_cons_of_pos (by simp)]
  | @shorter f' _ _ _ hnext =>
    have hlt : f.stop < f'.stop := by simpa using List.find?_some hnext
    have hle : (m.regex.finishes t start).find? (·.stop ≤ f'.stop - 1) = some f := by
      rw [← find?_stop_lt (by omega)]
      exact hnext
    exact Regex.find?_finishes_stop hle

theorem mem (h : m.LooksAt t allowEmpty start f) : f ∈ m.regex.finishes t start :=
  List.mem_of_find?_eq_some h.find?

/-- Without checks there is nothing to look at behind the preferred match. -/
theorem head? (h : m.LooksAt t allowEmpty start f) (hs : start ≤ t.size)
    (hfollows : m.follows = []) : (m.regex.finishes t start).head? = some f := by
  cases h with
  | preferred h => exact h
  | @shorter f' _ _ hrefused hnext =>
    -- only an empty match is refused, and none ends before it
    have hempty : f'.stop ≤ start := by
      rw [accepts, followsHold, hfollows, List.all_nil, Bool.and_true,
        Bool.or_eq_false_iff] at hrefused
      simpa using hrefused.2
    have hlt : f.stop < f'.stop := by simpa using List.find?_some hnext
    have := Regex.finishes_bounds (List.mem_of_find?_eq_some hnext) hs
    omega

end LooksAt

theorem exists_looksAt_of_acceptedEnd? {fuel e : Nat} (hs : start ≤ t.size)
    (hf : m.LooksAt t allowEmpty start f)
    (h : m.acceptedEnd? t start allowEmpty fuel f.stop = some e) :
    ∃ f', m.LooksAt t allowEmpty start f' ∧ f'.stop = e ∧
      m.accepts t allowEmpty start e = true := by
  induction fuel generalizing f with
  | zero =>
    unfold acceptedEnd? at h
    split at h
    · rename_i haccepted
      cases h
      exact ⟨f, hf, rfl, haccepted⟩
    · split at h <;> cases h
  | succ fuel ih =>
    unfold acceptedEnd? at h
    split at h
    · rename_i haccepted
      cases h
      exact ⟨f, hf, rfl, haccepted⟩
    · rename_i hrefused
      split at h
      · cases h
      · rename_i hgoOn
        obtain ⟨stop, hstop, hrest⟩ := Option.bind_eq_some_iff.mp h
        simp only [Bool.or_eq_true, decide_eq_true_eq, not_or, Nat.not_le] at hgoOn
        have hbounds := Regex.finishes_bounds hf.mem hs
        rw [Regex.endFrom?_eq _ (by omega) (by omega), Regex.find?_ends_eq] at hstop
        obtain ⟨f', hf', rfl⟩ := Option.map_eq_some_iff.mp hstop
        refine ih (hf.shorter (Bool.eq_false_iff.mpr hrefused) ?_) hrest
        rw [find?_stop_lt (by omega)]
        exact hf'

/-- The match that a matcher finds is one that it looks at and accepts. -/
theorem exists_looksAt_of_find? {i : Nat} {s : Span} (h : m.find? t i allowEmpty = some s) :
    ∃ f, m.LooksAt t allowEmpty s.start f ∧ f.stop = s.stop ∧
      m.accepts t allowEmpty s.start s.stop = true := by
  have hfirst := m.isFirst_find? t allowEmpty i
  rw [h] at hfirst
  obtain ⟨stop, hend, haccepted⟩ := Option.bind_eq_some_iff.mp hfirst.2.1
  rw [Regex.endAt?] at hend
  split at hend
  · rename_i hs
    rw [← Regex.map_stop_finishes, List.head?_map] at hend
    obtain ⟨f, hf, rfl⟩ := Option.map_eq_some_iff.mp hend
    exact exists_looksAt_of_acceptedEnd? (Nat.le_of_lt_succ hs) (.preferred hf) haccepted
  · cases hend

/-- The captures of a match that a matcher looks at are what it has recorded. -/
theorem captures_of_looksAt {s : Span} (hf : m.LooksAt t allowEmpty s.start f)
    (hstop : f.stop = s.stop) (hs : s.start ≤ t.size) :
    m.captures t s = m.regex.groupNames.zipIdx.map fun (name, i) =>
      ⟨name, (if i = 0 then some s else f.group? i).map t.extract⟩ := by
  have hbounds := Regex.finishes_bounds hf.mem hs
  have hfinish : m.regex.finishFrom? t (if m.follows.isEmpty then t.size else s.stop) s.start =
      some f := by
    split
    · rename_i hfollows
      rw [Regex.finishFrom?_eq_find? _ hs (Nat.le_refl _)]
      obtain ⟨fs, hfs⟩ := List.head?_eq_some_iff.mp (hf.head? hs (List.isEmpty_iff.mp hfollows))
      rw [hfs, List.find?_cons_of_pos (by simpa using hbounds.2)]
    · rw [Regex.finishFrom?_eq_find? _ (by omega) (by omega), ← hstop]
      exact hf.find?
  obtain ⟨first, stop⟩ := s
  cases hstop
  rw [captures, hfinish]

end Tinct.Matcher
