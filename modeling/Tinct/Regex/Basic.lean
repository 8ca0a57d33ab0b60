import Tinct.Regex.Parser
import Tinct.Regex.Run
import Tinct.Regex.Size

/-!
# Compiled regular expressions

A `Regex` is a source together with the program it stands for. Searching looks for the first
position from which the program matches and takes the preferred match there. It asks assertions
late, and at once only where the late search gives up (`Regex/Run.lean`):

* `Regex.compile`: accepts a source, unless it is ill formed or too large;
* `Regex.endFrom?`: the end of the preferred match from one position, inside a window;
* `Regex.find?`, `Regex.findAll`: the first match from a position on, and all that do not overlap;
* `Regex.finishFrom?`: the match with what its groups have recorded, for which assertions are asked
  at once, inside the match found late;
* `Regex.firstFrom_eq_some_iff`: what makes a position the first;
* `escape`: a source that matches a text literally.
-/

namespace Tinct

/-- A regular expression that can be searched for. -/
structure Regex where
  source : String
  program : Regex.Program
  /-- The names of the groups by number; group 0 is the whole match. -/
  groupNames : List (Option String)
deriving DecidableEq, Repr, Inhabited

namespace Regex

/-- Why a source is no regular expression. -/
inductive Fault where
  | illFormed
  | tooLarge
deriving DecidableEq, Repr

/-- The regular expression of a source whose meaning is known. -/
def ofExpr (source : String) (e : Expr) : Regex := ⟨source, e.program, e.groupNames⟩

/-- The regular expression of a source, in which `^` and `$` match at line ends. -/
def compile (source : String) (ignoreCase : Bool) : Except Fault Regex :=
  match Expr.parse? { ignoreCase, multiLine := true } source with
  | none => .error .illFormed
  | some e => if e.isTooLarge then .error .tooLarge else .ok (ofExpr source e)

/-- The number of groups, the whole match included. -/
def groupCount (r : Regex) : Nat := r.groupNames.length

/-! ## Matches from one position -/

/-- The preferred match from position `start` that ends at `stop` at the latest, where assertions
are asked at once. -/
def eagerFrom? (r : Regex) (t : Text) (stop start : Nat) : Option Finish :=
  match r.program.runFrom .eager ⟨t, stop⟩ start with
  | .matched f => some f
  | _ => none

/-- The end of the preferred match from position `start` that ends at `stop` at the latest. -/
def endFrom? (r : Regex) (t : Text) (stop start : Nat) : Option Nat :=
  match r.program.runFrom .late ⟨t, stop⟩ start with
  | .matched f => some f.stop
  | .failed => none
  | .gaveUp => (r.eagerFrom? t stop start).map (·.stop)

/-- The preferred match from position `start` with what its groups have recorded. -/
def finishFrom? (r : Regex) (t : Text) (stop start : Nat) : Option Finish :=
  match r.program.runFrom .late ⟨t, stop⟩ start with
  | .matched f => r.eagerFrom? t f.stop start
  | .failed => none
  | .gaveUp => r.eagerFrom? t stop start

/-- Whether the expression matches from position `start`. -/
def matchesAt (r : Regex) (t : Text) (start : Nat) : Bool := (r.endFrom? t t.size start).isSome

/-! ## The first match -/

/-- The first of the positions `i`, …, `i + n - 1` for which `f` gives an answer. -/
def firstFrom (f : Nat → Option α) : Nat → Nat → Option (Nat × α)
  | 0, _ => none
  | n + 1, i =>
    match f i with
    | some a => some (i, a)
    | none => firstFrom f n (i + 1)

theorem firstFrom_eq_none_iff {f : Nat → Option α} {n i : Nat} :
    firstFrom f n i = none ↔ ∀ j, i ≤ j → j < i + n → f j = none := by
  fun_induction firstFrom f n i with
  | case1 i => exact ⟨fun _ j hj hn => absurd hn (by omega), fun _ => rfl⟩
  | case2 n i a h => exact ⟨nofun, fun h' => by simp [h' i (by omega) (by omega)] at h⟩
  | case3 n i h ih =>
    rw [ih]
    constructor
    · intro h' j hj hn
      rcases Nat.eq_or_lt_of_le hj with rfl | hj
      · exact h
      · exact h' j hj (by omega)
    · exact fun h' j hj hn => h' j (by omega) (by omega)

/-- The position found is the first with an answer. -/
theorem firstFrom_eq_some_iff {f : Nat → Option α} {n i j : Nat} {a : α} :
    firstFrom f n i = some (j, a) ↔
      i ≤ j ∧ j < i + n ∧ f j = some a ∧ ∀ k, i ≤ k → k < j → f k = none := by
  fun_induction firstFrom f n i with
  | case1 i => exact ⟨fun h => (by cases h), fun ⟨_, _, _, _⟩ => by omega⟩
  | case2 n i b h =>
    constructor
    · intro h'
      cases h'
      exact ⟨Nat.le_refl _, by omega, h, fun k _ _ => by omega⟩
    · rintro ⟨hij, -, hj, hk⟩
      rcases Nat.eq_or_lt_of_le hij with rfl | hlt
      · rw [h] at hj; cases hj; rfl
      · rw [hk i (Nat.le_refl _) hlt] at h; cases h
  | case3 n i h ih =>
    rw [ih]
    constructor
    · rintro ⟨hij, hn, hj, hk⟩
      refine ⟨by omega, by omega, hj, fun k h1 h2 => ?_⟩
      rcases Nat.eq_or_lt_of_le h1 with rfl | h1
      · exact h
      · exact hk k h1 h2
    · rintro ⟨hij, hn, hj, hk⟩
      rcases Nat.eq_or_lt_of_le hij with rfl | hlt
      · rw [h] at hj; cases hj
      · exact ⟨hlt, by omega, hj, fun k h1 h2 => hk k (by omega) h2⟩

/-- The first match that starts at `start` or later. Once the late search gives up, the eager one
answers for all positions. -/
def find? (r : Regex) (t : Text) (start : Nat) : Option Span :=
  let positions := t.size + 1 - start
  let late (i : Nat) : Option (Option Nat) :=
    match r.program.runFrom .late ⟨t, t.size⟩ i with
    | .matched f => some (some f.stop)
    | .failed => none
    | .gaveUp => some none
  match firstFrom late positions start with
  | none => none
  | some (i, some stop) => some ⟨i, stop⟩
  | some (_, none) =>
    (firstFrom (r.eagerFrom? t t.size) positions start).map fun (i, f) => ⟨i, f.stop⟩

/-- The matches from `start` on, each searched for where the one before it ends; an empty match
there is passed over. -/
def findAllFrom (r : Regex) (t : Text) : Nat → Nat → Option Nat → List Span
  | 0, _, _ => []
  | fuel + 1, start, last =>
    match r.find? t start with
    | none => []
    | some s =>
      if s.isEmpty ∧ last = some s.stop then findAllFrom r t fuel (start + 1) none
      else s :: findAllFrom r t fuel s.stop (some s.stop)

/-- All matches in `t` that do not overlap, first to last. -/
def findAll (r : Regex) (t : Text) : List Span := r.findAllFrom t (2 * t.size + 2) 0 none

end Regex

/-- A source that matches exactly `s`. -/
def escape (s : String) : String :=
  .ofList (s.toList.flatMap fun c => if Regex.isMeta c then ['\\', c] else [c])

end Tinct
