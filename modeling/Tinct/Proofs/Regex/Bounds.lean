import Tinct.Pattern.Matcher

/-!
# Where matches lie

Every search stays inside its window, and what it finds does not start before the position the
search starts from:

* `Regex.find?_bounds`: the first match of a regular expression;
* `Regex.findAll_ordered`: all matches that do not overlap, in the order of the text;
* `Matcher.find?_bounds`: the first accepted match of a matcher.
-/

namespace Tinct

/-- Whether a span lies between two positions and does not run backwards. -/
def Span.Within (lo hi : Nat) (s : Span) : Prop := lo ≤ s.start ∧ s.start ≤ s.stop ∧ s.stop ≤ hi

theorem Span.Within.mono {lo lo' hi : Nat} {s : Span} (h : s.Within lo hi) (hl : lo' ≤ lo) :
    s.Within lo' hi :=
  ⟨Nat.le_trans hl h.1, h.2⟩

namespace Regex
namespace Program

theorem ended_eq_matched {best? : Option Finish} {f : Finish} (h : run.ended best? = .matched f) :
    best? = some f := by
  cases best? with
  | none => cases h
  | some g => cases h; rfl

/-- The best match after a position is one that ends there or the best one before. -/
theorem stop_of_or_eq {i : Nat} {accepted? : Option Thread} {best? : Option Finish} {f : Finish}
    (h : (accepted?.map fun t => Finish.mk i t.trail).or best? = some f) :
    best? = some f ∨ f.stop = i := by
  cases accepted? with
  | none => exact .inl h
  | some t => cases h; exact .inr rfl

/-- A run finds nothing behind its window, and nothing in front of where it has come to but what
it had found before. -/
theorem run_bounds {p : Program} {timing : Timing} {w : Window} {fuel i : Nat}
    {threads : List Thread} {best? : Option Finish} {fresh : Bool} {f : Finish}
    (h : p.run timing w fuel i threads best? fresh = .matched f) (hi : i + fuel ≤ w.stop + 1) :
    best? = some f ∨ i ≤ f.stop ∧ f.stop ≤ w.stop := by
  fun_induction run p timing w fuel i threads best? fresh with
  | case1 => exact .inl (ended_eq_matched h)
  | case2 => exact .inl (ended_eq_matched h)
  | case3 => cases h
  | case4 fuel i threads best? fresh c? _ _ inside here live accepted? _ best hin ih =>
    rcases ih h (by omega) with hbest | ⟨h1, h2⟩
    · exact (stop_of_or_eq hbest).imp_right fun hf => by omega
    · exact .inr ⟨by omega, h2⟩
  | case5 fuel i threads best? fresh c? _ _ inside here live accepted? _ best hout =>
    exact (stop_of_or_eq (ended_eq_matched h)).imp_right fun hf => by omega

theorem runFrom_bounds {p : Program} {timing : Timing} {w : Window} {start : Nat} {f : Finish}
    (h : p.runFrom timing w start = .matched f) : start ≤ f.stop ∧ f.stop ≤ w.stop := by
  unfold runFrom at h
  split at h
  · cases h
  · by_cases hs : start ≤ w.stop
    · exact (run_bounds h (by omega)).resolve_left nofun
    · -- no position of the window is left, so no fuel
      rw [Nat.sub_eq_zero_of_le (by omega)] at h
      cases ended_eq_matched h

end Program

theorem eagerFrom?_bounds {r : Regex} {t : Text} {stop start : Nat} {f : Finish}
    (h : r.eagerFrom? t stop start = some f) : start ≤ f.stop ∧ f.stop ≤ stop := by
  unfold eagerFrom? at h
  split at h
  · rename_i g hg
    cases h
    exact Program.runFrom_bounds hg
  · cases h

theorem endFrom?_bounds {r : Regex} {t : Text} {stop start e : Nat}
    (h : r.endFrom? t stop start = some e) : start ≤ e ∧ e ≤ stop := by
  unfold endFrom? at h
  split at h
  · rename_i f hf
    cases h
    exact Program.runFrom_bounds hf
  · cases h
  · obtain ⟨f, hf, rfl⟩ := Option.map_eq_some_iff.mp h
    exact eagerFrom?_bounds hf

/-- The first match from a position on lies between the position and the end of the text. -/
theorem find?_bounds {r : Regex} {t : Text} {start : Nat} {s : Span}
    (h : r.find? t start = some s) : s.Within start t.size := by
  simp only [find?] at h
  split at h
  · cases h
  · rename_i i stop hfirst
    cases h
    obtain ⟨hi, -, hlate, -⟩ := firstFrom_eq_some_iff.mp hfirst
    split at hlate
    · rename_i f hf
      cases hlate
      exact ⟨hi, Program.runFrom_bounds hf⟩
    · cases hlate
    · cases hlate
  · obtain ⟨⟨i, f⟩, hfirst, rfl⟩ := Option.map_eq_some_iff.mp h
    obtain ⟨hi, -, heager, -⟩ := firstFrom_eq_some_iff.mp hfirst
    exact ⟨hi, eagerFrom?_bounds heager⟩

/-- Spans between two positions, none of which starts before the one in front of it ends. -/
def Ordered : Nat → Nat → List Span → Prop
  | _, _, [] => True
  | lo, hi, s :: ss => s.Within lo hi ∧ Ordered s.stop hi ss

theorem Ordered.mono {lo lo' hi : Nat} {ss : List Span} (h : Ordered lo hi ss) (hl : lo' ≤ lo) :
    Ordered lo' hi ss := by
  cases ss with
  | nil => trivial
  | cons s ss => exact ⟨h.1.mono hl, h.2⟩

theorem Ordered.within {lo hi : Nat} {ss : List Span} (h : Ordered lo hi ss) :
    ∀ s ∈ ss, s.Within lo hi := by
  induction ss generalizing lo with
  | nil => exact nofun
  | cons s ss ih =>
    refine List.forall_mem_cons.mpr ⟨h.1, fun s' hs' => ?_⟩
    exact (ih h.2 s' hs').mono (Nat.le_trans h.1.1 h.1.2.1)

theorem findAllFrom_ordered (r : Regex) (t : Text) (fuel start : Nat) (last : Option Nat) :
    Ordered start t.size (r.findAllFrom t fuel start last) := by
  fun_induction findAllFrom r t fuel start last with
  | case1 => trivial
  | case2 => trivial
  | case3 fuel start last s hs _ ih => exact ih.mono (Nat.le_succ _)
  | case4 fuel start last s hs _ ih => exact ⟨find?_bounds hs, ih⟩

theorem findAll_ordered (r : Regex) (t : Text) : Ordered 0 t.size (r.findAll t) :=
  r.findAllFrom_ordered t _ 0 none

end Regex

namespace Matcher

/-- An accepted end lies between the start and the preferred end. -/
theorem acceptedEnd?_bounds {m : Matcher} {t : Text} {start fuel stop e : Nat} {allowEmpty : Bool}
    (h : m.acceptedEnd? t start allowEmpty fuel stop = some e) (hs : start ≤ stop) :
    start ≤ e ∧ e ≤ stop := by
  induction fuel generalizing stop with
  | zero =>
    unfold acceptedEnd? at h
    split at h
    · cases h; exact ⟨hs, Nat.le_refl _⟩
    · split at h <;> cases h
  | succ fuel ih =>
    unfold acceptedEnd? at h
    split at h
    · cases h; exact ⟨hs, Nat.le_refl _⟩
    · split at h
      · cases h
      · obtain ⟨e', he, hrest⟩ := Option.bind_eq_some_iff.mp h
        obtain ⟨h1, h2⟩ := Regex.endFrom?_bounds he
        have := ih hrest h1
        omega

/-- What is accepted passes the checks, and it is empty only if it may be. -/
theorem acceptedEnd?_accepts {m : Matcher} {t : Text} {start fuel stop e : Nat}
    {allowEmpty : Bool} (h : m.acceptedEnd? t start allowEmpty fuel stop = some e) :
    ((allowEmpty || start < e) && m.followsHold t e) = true := by
  induction fuel generalizing stop with
  | zero =>
    unfold acceptedEnd? at h
    split at h
    · rename_i haccepts
      cases h
      exact haccepts
    · split at h <;> cases h
  | succ fuel ih =>
    unfold acceptedEnd? at h
    split at h
    · rename_i haccepts
      cases h
      exact haccepts
    · split at h
      · cases h
      · obtain ⟨e', -, hrest⟩ := Option.bind_eq_some_iff.mp h
        exact ih hrest

theorem findFrom?_bounds {m : Matcher} {t : Text} {allowEmpty : Bool} {fuel start : Nat} {s : Span}
    (h : m.findFrom? t allowEmpty fuel start = some s) : s.Within start t.size := by
  fun_induction findFrom? m t allowEmpty fuel start with
  | case1 => cases h
  | case2 => cases h
  | case3 fuel start found hfound e he =>
    cases h
    obtain ⟨h1, h2, h3⟩ := Regex.find?_bounds hfound
    obtain ⟨h4, h5⟩ := acceptedEnd?_bounds he h2
    exact ⟨h1, h4, Nat.le_trans h5 h3⟩
  | case4 fuel start found hfound _ ih =>
    have h1 := (Regex.find?_bounds hfound).1
    exact (ih h).mono (Nat.le_succ_of_le h1)

/-- The first accepted match from a position on lies between the position and the end of the
text. -/
theorem find?_bounds {m : Matcher} {t : Text} {start : Nat} {allowEmpty : Bool} {s : Span}
    (h : m.find? t start allowEmpty = some s) : s.Within start t.size :=
  findFrom?_bounds h

theorem findFrom?_accepts {m : Matcher} {t : Text} {allowEmpty : Bool} {fuel start : Nat}
    {s : Span} (h : m.findFrom? t allowEmpty fuel start = some s) :
    ((allowEmpty || s.start < s.stop) && m.followsHold t s.stop) = true := by
  fun_induction findFrom? m t allowEmpty fuel start with
  | case1 => cases h
  | case2 => cases h
  | case3 fuel start found hfound e he =>
    cases h
    exact acceptedEnd?_accepts he
  | case4 fuel start found hfound _ ih => exact ih h

/-- Where empty matches do not count, what is found is not empty. -/
theorem start_lt_stop_of_find? {m : Matcher} {t : Text} {start : Nat} {s : Span}
    (h : m.find? t start false = some s) : s.start < s.stop := by
  simpa using (Bool.and_eq_true_iff.mp (findFrom?_accepts h)).1

end Matcher
end Tinct
