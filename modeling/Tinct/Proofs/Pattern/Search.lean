import Tinct.Pattern.Compile
import Tinct.Proofs.Except
import Tinct.Proofs.Pattern.Captures
import Tinct.Proofs.Text.Offsets

/-!
# Searches of a matcher

A matcher searches in two loops: one goes from start to start, and one tries shorter matches from a
start for as long as the checks behind them refuse. Both come to an end by themselves, and what a
search has found is found again from every position up to it:

* `Matcher.Settles`, `Matcher.Searches`: what the loops come to, however many turns they take;
* `Matcher.settles_iff`, `Matcher.searches_iff`: the bounds on their turns decide nothing;
* `Matcher.Answers`: what a search may answer;
* `Matcher.find?_sound_stable`: what a search answers, and from where else it answers the same.
-/

namespace Tinct.Matcher

section loops
variable (m : Matcher) (t : Text) (allowEmpty : Bool)

/-- What a matcher comes to that looks at a match from `start` and, while it refuses, at the
preferred one of those that end earlier: the end that it accepts, or none. -/
inductive Settles (start : Nat) : Nat → Option Nat → Prop
  | accepted {stop : Nat} (h : m.accepts t allowEmpty start stop = true) :
    Settles start stop (some stop)
  | last {stop : Nat} (h : m.accepts t allowEmpty start stop = false)
    (hlast : m.follows = [] ∨ stop ≤ start) : Settles start stop none
  | shortest {stop : Nat} (h : m.accepts t allowEmpty start stop = false)
    (hfollows : m.follows ≠ []) (hlt : start < stop)
    (hnext : m.regex.endFrom? t (stop - 1) start = none) : Settles start stop none
  | shorter {stop stop' : Nat} {r : Option Nat} (h : m.accepts t allowEmpty start stop = false)
    (hfollows : m.follows ≠ []) (hlt : start < stop)
    (hnext : m.regex.endFrom? t (stop - 1) start = some stop') (hrest : Settles start stop' r) :
    Settles start stop r

/-- What a matcher comes to that searches from a position on and, while it refuses all matches from
a start, from the next character on. -/
inductive Searches : Nat → Option Span → Prop
  | nowhere {i : Nat} (h : m.regex.find? t i = none) : Searches i none
  | here {i stop : Nat} {s : Span} (h : m.regex.find? t i = some s)
    (hstop : m.Settles t allowEmpty s.start s.stop (some stop)) :
    Searches i (some ⟨s.start, stop⟩)
  | exhausted {i : Nat} {s : Span} (h : m.regex.find? t i = some s)
    (hstop : m.Settles t allowEmpty s.start s.stop none) (hend : t.after? s.start = none) :
    Searches i none
  | onward {i : Nat} {s : Span} {c : Char} {r : Option Span} (h : m.regex.find? t i = some s)
    (hstop : m.Settles t allowEmpty s.start s.stop none) (hnext : t.after? s.start = some c)
    (hrest : Searches (s.start + 1) r) : Searches i r

end loops

variable {m : Matcher} {t : Text} {allowEmpty : Bool} {start stop i : Nat}

theorem Settles.unique {r r' : Option Nat} (h : m.Settles t allowEmpty start stop r)
    (h' : m.Settles t allowEmpty start stop r') : r = r' := by
  induction h with
  | accepted h =>
    cases h' with
    | accepted => rfl
    | last h' | shortest h' | shorter h' => exact absurd (h.symm.trans h') (by decide)
  | last h hlast =>
    cases h' with
    | accepted h' => exact absurd (h.symm.trans h') (by decide)
    | last | shortest => rfl
    | shorter _ hfollows hlt => exact absurd hlast (by simp [hfollows, hlt])
  | shortest h hfollows hlt hnext =>
    cases h' with
    | accepted h' => exact absurd (h.symm.trans h') (by decide)
    | last | shortest => rfl
    | shorter _ _ _ hnext' => exact absurd (hnext.symm.trans hnext') nofun
  | shorter h hfollows hlt hnext _ ih =>
    cases h' with
    | accepted h' => exact absurd (h.symm.trans h') (by decide)
    | last _ hlast => exact absurd hlast (by simp [hfollows, hlt])
    | shortest _ _ _ hnext' => exact absurd (hnext.symm.trans hnext') nofun
    | shorter _ _ _ hnext' hrest' =>
      obtain rfl := Option.some.inj (hnext.symm.trans hnext')
      exact ih hrest'

/-- Each shorter match ends in front of the one before it, so that as many turns suffice as the
first match has characters. -/
theorem settles_acceptedEnd? {fuel : Nat} (h : stop - start ≤ fuel) :
    m.Settles t allowEmpty start stop (m.acceptedEnd? t start allowEmpty fuel stop) := by
  induction fuel generalizing stop with
  | zero =>
    unfold acceptedEnd?
    split
    · rename_i haccepted
      exact .accepted haccepted
    · rename_i hrefused
      rw [ite_self]
      exact .last (Bool.eq_false_iff.mpr hrefused) (.inr (by omega))
  | succ fuel ih =>
    unfold acceptedEnd?
    split
    · rename_i haccepted
      exact .accepted haccepted
    · rename_i hrefused
      have hrefused := Bool.eq_false_iff.mpr hrefused
      split
      · rename_i hlast
        exact .last hrefused (by simpa using hlast)
      · rename_i hgoOn
        obtain ⟨hfollows, hlt⟩ : m.follows ≠ [] ∧ start < stop := by simpa using hgoOn
        cases hnext : m.regex.endFrom? t (stop - 1) start with
        | none => exact .shortest hrefused hfollows hlt hnext
        | some stop' =>
          have hbounds := Regex.endFrom?_bounds hnext
          exact .shorter hrefused hfollows hlt hnext (ih (by omega))

theorem settles_iff {r : Option Nat} : m.Settles t allowEmpty start stop r ↔
    m.acceptedEnd? t start allowEmpty (stop - start) stop = r := by
  have hsettles := @settles_acceptedEnd? m t allowEmpty start stop _ (Nat.le_refl _)
  exact ⟨hsettles.unique, fun h => h ▸ hsettles⟩

theorem Searches.unique {r r' : Option Span} (h : m.Searches t allowEmpty i r)
    (h' : m.Searches t allowEmpty i r') : r = r' := by
  induction h with
  | nowhere h =>
    cases h' with
    | nowhere => rfl
    | here h' | exhausted h' | onward h' => exact absurd (h.symm.trans h') nofun
  | here h hstop =>
    cases h' with
    | nowhere h' => exact absurd (h.symm.trans h') nofun
    | here h' hstop' =>
      obtain rfl := Option.some.inj (h.symm.trans h')
      obtain rfl := Option.some.inj (hstop.unique hstop')
      rfl
    | exhausted h' hstop' | onward h' hstop' =>
      obtain rfl := Option.some.inj (h.symm.trans h')
      exact absurd (hstop.unique hstop') nofun
  | exhausted h hstop hend =>
    cases h' with
    | nowhere => rfl
    | here h' hstop' =>
      obtain rfl := Option.some.inj (h.symm.trans h')
      exact absurd (hstop.unique hstop') nofun
    | exhausted => rfl
    | onward h' _ hnext =>
      obtain rfl := Option.some.inj (h.symm.trans h')
      exact absurd (hend.symm.trans hnext) nofun
  | onward h hstop hnext _ ih =>
    cases h' with
    | nowhere h' => exact absurd (h.symm.trans h') nofun
    | here h' hstop' =>
      obtain rfl := Option.some.inj (h.symm.trans h')
      exact absurd (hstop.unique hstop') nofun
    | exhausted h' _ hend =>
      obtain rfl := Option.some.inj (h.symm.trans h')
      exact absurd (hend.symm.trans hnext) nofun
    | onward h' _ _ hrest' =>
      obtain rfl := Option.some.inj (h.symm.trans h')
      exact ih hrest'

theorem findFrom?_of_size_lt (h : t.size < i) (fuel : Nat) :
    m.findFrom? t allowEmpty fuel i = none := by
  refine Option.eq_none_iff_forall_ne_some.mpr fun s hs => ?_
  obtain ⟨hstart, hle, hstop⟩ := findFrom?_bounds hs
  omega

/-- Each turn starts behind the start of the match before it, so that as many turns suffice as there
are positions. -/
theorem searches_findFrom? {fuel : Nat} (h : t.size + 1 ≤ i + fuel) :
    m.Searches t allowEmpty i (m.findFrom? t allowEmpty fuel i) := by
  have hnone {i : Nat} {s : Span} (hs : m.regex.find? t i = some s) : i ≤ t.size := by
    obtain ⟨hstart, hle, hstop⟩ := Regex.find?_bounds hs
    omega
  induction fuel generalizing i with
  | zero =>
    cases hs : m.regex.find? t i with
    | none => exact .nowhere hs
    | some s =>
      have hle := hnone hs
      omega
  | succ fuel ih =>
    rw [findFrom?]
    cases hs : m.regex.find? t i with
    | none => exact .nowhere hs
    | some s =>
      have hstart := (Regex.find?_bounds hs).1
      dsimp only
      cases hstop : m.acceptedEnd? t s.start allowEmpty (s.stop - s.start) s.stop with
      | some stop => exact .here hs (settles_iff.mpr hstop)
      | none =>
        dsimp only
        cases hnext : t.after? s.start with
        | some c => exact .onward hs (settles_iff.mpr hstop) hnext (ih (by omega))
        | none =>
          have hsize : t.size ≤ s.start := Array.getElem?_eq_none_iff.mp hnext
          rw [findFrom?_of_size_lt (Nat.lt_succ_of_le hsize)]
          exact .exhausted hs (settles_iff.mpr hstop) hnext

theorem searches_iff {r : Option Span} :
    m.Searches t allowEmpty i r ↔ m.find? t i allowEmpty = r := by
  have hsearches : m.Searches t allowEmpty i (m.find? t i allowEmpty) :=
    searches_findFrom? (by omega)
  exact ⟨hsearches.unique, fun h => h ▸ hsearches⟩

/-! ## Answers -/

/-- What a search from a position on may answer: a match of the body between two characters of the
source, behind which all checks hold. -/
structure Answers (m : Matcher) (source : String) (start : Nat) (allowEmpty : Bool) (s : Span) :
    Prop where
  within : s.Within start (Text.ofString source).size
  start_isValid : (String.Pos.Raw.mk ((Text.ofString source).offset s.start)).IsValid source
  stop_isValid : (String.Pos.Raw.mk ((Text.ofString source).offset s.stop)).IsValid source
  nonempty : allowEmpty = false → s.start < s.stop
  body : s.stop ∈ m.regex.ends (.ofString source) s.start
  follows : ∀ f ∈ m.follows, f.holds (.ofString source) s.stop = true

theorem answers_of_find? {source : String} {s : Span}
    (h : m.find? (.ofString source) start allowEmpty = some s) :
    m.Answers source start allowEmpty s := by
  obtain ⟨f, hf, hstop, haccepts⟩ := exists_looksAt_of_find? h
  obtain ⟨hnonempty, hfollows⟩ := (Bool.and_eq_true _ _).mp haccepts
  refine ⟨find?_bounds h, Text.isValid_offset source _, Text.isValid_offset source _, ?_, ?_,
    List.all_eq_true.mp hfollows⟩
  · rintro rfl
    simpa using hnonempty
  · rw [← hstop, ← Regex.map_stop_finishes]
    exact List.mem_map_of_mem hf.mem

/-- A search ends by itself. What it answers is a match of the body with all checks behind it, and
from every position up to that match the same is answered; where nothing is found, nothing is found
from any later position. -/
theorem find?_sound_stable (m : Matcher) (source : String) (start : Nat) (allowEmpty : Bool) :
    (∀ r, m.Searches (.ofString source) allowEmpty start r ↔
      m.find? (.ofString source) start allowEmpty = r) ∧
    (∀ s, m.find? (.ofString source) start allowEmpty = some s →
      m.Answers source start allowEmpty s ∧
      ∀ later, start ≤ later → later ≤ s.start →
        m.find? (.ofString source) later allowEmpty = some s) ∧
    (m.find? (.ofString source) start allowEmpty = none →
      ∀ later, start ≤ later → m.find? (.ofString source) later allowEmpty = none) := by
  have hfirst (i : Nat) := m.isFirst_find? (.ofString source) allowEmpty i
  refine ⟨fun r => searches_iff, fun s hs => ⟨answers_of_find? hs, fun later hlater hle => ?_⟩,
    fun hnone later hlater => ?_⟩
  · have hfound := hfirst start
    rw [hs] at hfound
    refine (hfirst later).unique (hfound.later hlater fun s' hs' => ?_)
    cases hs'
    exact hle
  · have hfound := hfirst start
    rw [hnone] at hfound
    exact (hfirst later).unique (hfound.later hlater nofun)

/-- A match that gives back a character is found from the text start and from its own. -/
theorem find?_sound_stable_repetition : ∃ m,
    PatternScope.matcher ⟨[], false⟩ (.source "a+(?!b)") = .ok m ∧
      m.find? (.ofString "éaab") 0 false = some ⟨1, 2⟩ ∧
      m.Answers "éaab" 0 false ⟨1, 2⟩ ∧ m.find? (.ofString "éaab") 1 false = some ⟨1, 2⟩ := by
  obtain ⟨m, hm, hfind⟩ : ∃ m, PatternScope.matcher ⟨[], false⟩ (.source "a+(?!b)") = .ok m ∧
      m.find? (.ofString "éaab") 0 false = some ⟨1, 2⟩ :=
    exists_ok (by decide +kernel)
  obtain ⟨-, hfound, -⟩ := find?_sound_stable m "éaab" 0 false
  obtain ⟨hanswers, hsame⟩ := hfound _ hfind
  exact ⟨m, hm, hfind, hanswers, hsame 1 (by decide) (by decide)⟩

end Tinct.Matcher
