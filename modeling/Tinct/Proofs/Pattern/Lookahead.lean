import Tinct.Pattern.Compile
import Tinct.Proofs.Except
import Tinct.Proofs.Pattern.Retry

/-!
# Lookaheads as they are written

A pattern compiles to a body and checks behind it, the trailing lookaheads. These are compiled under
the flags that a source starts with, while a backtracking engine reads them under the flags in force
where they are written:

* `Regex.Expr.flagsBehind?`: the flags in force behind a source;
* `PatternScope.written?`: a pattern with its lookaheads read where they are written;
* `PatternScope.written?_eq_matcher`: both are the same where the body leaves the flags as they
  were;
* `PatternScope.matcher_backtracks_iff`: when the matcher of a pattern finds what backtracking
  finds.
-/

namespace Tinct
namespace Regex

/-- Reads on up to the end of a source. -/
def Reading.end? : Nat → Reading → Option Reading
  | fuel, r =>
    let r := { r with rest := r.flags.skip r.rest }
    if r.rest.isEmpty then some r
    else
      match fuel with
      | 0 => none
      | fuel + 1 => r.step?.bind (Reading.end? fuel)

/-- The expression that has been read, if no group is open and it does not nest too deep. -/
def Reading.whole? (r : Reading) : Option Expr :=
  let body := r.group.contents
  if r.outer.isEmpty && body.height ≤ nestLimit then some body.expr else none

theorem Reading.finish?_eq (fuel : Nat) (r : Reading) :
    r.finish? fuel = (r.end? fuel).bind Reading.whole? := by
  induction fuel generalizing r with
  | zero =>
    unfold finish? end?
    dsimp only
    split <;> rfl
  | succ fuel ih =>
    unfold finish? end?
    dsimp only
    split
    · rfl
    · rw [Option.bind_assoc]
      exact congrArg _ (funext ih)

/-- The flags in force behind a source that is read under the flags `f`. -/
def Expr.flagsBehind? (f : Flags) (source : String) : Option Flags :=
  (Reading.end? source.length ⟨source.toList, f, ⟨f, none, [], []⟩, [], 0, []⟩).map (·.flags)

/-- There are some behind every regular expression. -/
theorem Expr.exists_flagsBehind? {f : Flags} {source : String} {e : Expr}
    (h : Expr.parse? f source = some e) : ∃ f', Expr.flagsBehind? f source = some f' := by
  rw [parse?, Reading.finish?_eq, Option.bind_eq_some_iff] at h
  obtain ⟨r, hr, -⟩ := h
  exact ⟨r.flags, by rw [flagsBehind?, hr]; rfl⟩

/-- What a source is compiled to is what it stands for. -/
theorem exists_parse?_of_compile {source : String} {ignoreCase : Bool} {r : Regex}
    (h : Regex.compile source ignoreCase = .ok r) :
    ∃ e, Expr.parse? { ignoreCase, multiLine := true } source = some e ∧ r = .ofExpr source e := by
  unfold Regex.compile at h
  cases hparse : Expr.parse? { ignoreCase, multiLine := true } source with
  | none => rw [hparse] at h; cases h
  | some e =>
    rw [hparse] at h
    dsimp only at h
    cases hlarge : e.isTooLarge with
    | true => rw [hlarge] at h; cases h
    | false => rw [hlarge] at h; cases h; exact ⟨e, rfl, rfl⟩

end Regex

/-- A lookahead as it reads under some flags. -/
def FollowSource.read? (f : Regex.Flags) (s : FollowSource) : Option Follow :=
  (Regex.Expr.parse? f s.source).map fun e => ⟨.ofExpr s.source e, s.negated⟩

namespace PatternScope
variable {p : PatternScope} {pattern : Pattern} {m w : Matcher}

/-- The flags in force where a source starts. -/
def flags (p : PatternScope) : Regex.Flags := { ignoreCase := p.ignoreCase, multiLine := true }

/-- A pattern as one source without its trailing lookaheads, and these. -/
def lowered? (p : PatternScope) (pattern : Pattern) : Option Lowered :=
  (assemble p.named pattern >>= lowerLookaheads).toOption

/-- A pattern with its lookaheads read under the flags in force where they are written, which is
behind the body. -/
def written? (p : PatternScope) (pattern : Pattern) : Option Matcher :=
  (p.lowered? pattern).bind fun lowered =>
    (compileRegex lowered.body p.ignoreCase).toOption.bind fun regex =>
      (Regex.Expr.flagsBehind? p.flags lowered.body).bind fun flags =>
        (lowered.follows.mapM (FollowSource.read? flags)).map (⟨regex, ·⟩)

/-- What the matcher of a pattern is made of. -/
theorem matcher_eq_ok (h : p.matcher pattern = .ok m) :
    ∃ lowered, p.lowered? pattern = some lowered ∧
      compileRegex lowered.body p.ignoreCase = .ok m.regex ∧
      lowered.follows.mapM p.follow = .ok m.follows := by
  obtain ⟨source, hsource, h⟩ := bind_eq_ok.mp h
  obtain ⟨refers, -, h⟩ := bind_eq_ok.mp h
  cases refers with
  | true => cases h
  | false =>
    obtain ⟨lowered, hlowered, h⟩ := bind_eq_ok.mp h
    obtain ⟨regex, hregex, h⟩ := bind_eq_ok.mp h
    obtain ⟨follows, hfollows, h⟩ := bind_eq_ok.mp h
    cases h
    refine ⟨lowered, ?_, hregex, hfollows⟩
    rw [lowered?, bind_eq_ok.mpr ⟨source, hsource, hlowered⟩]
    rfl

theorem exists_parse?_of_compileRegex {source : String} {r : Regex}
    (h : compileRegex source p.ignoreCase = .ok r) :
    ∃ e, Regex.Expr.parse? p.flags source = some e ∧ r = .ofExpr source e := by
  unfold compileRegex at h
  cases hcompile : Regex.compile source p.ignoreCase with
  | error e => rw [hcompile] at h; cases e <;> cases h
  | ok r =>
    rw [hcompile] at h
    cases h
    exact Regex.exists_parse?_of_compile hcompile

theorem exists_flagsBehind?_of_compileRegex {source : String} {r : Regex}
    (h : compileRegex source p.ignoreCase = .ok r) :
    ∃ flags, Regex.Expr.flagsBehind? p.flags source = some flags := by
  obtain ⟨e, hparse, -⟩ := exists_parse?_of_compileRegex h
  exact Regex.Expr.exists_flagsBehind? hparse

/-- What is read of an accepted pattern: its body as it is compiled, and its lookaheads. -/
theorem written?_eq (hm : p.matcher pattern = .ok m) :
    ∃ lowered flags, p.lowered? pattern = some lowered ∧
      lowered.follows.mapM p.follow = .ok m.follows ∧
      Regex.Expr.flagsBehind? p.flags lowered.body = some flags ∧
      p.written? pattern =
        (lowered.follows.mapM (FollowSource.read? flags)).map (⟨m.regex, ·⟩) := by
  obtain ⟨lowered, hlowered, hregex, hfollows⟩ := matcher_eq_ok hm
  obtain ⟨flags, hflags⟩ := exists_flagsBehind?_of_compileRegex hregex
  refine ⟨lowered, flags, hlowered, hfollows, hflags, ?_⟩
  rw [written?, hlowered, Option.bind_some, hregex, Except.toOption, Option.bind_some, hflags,
    Option.bind_some]

/-- A pattern has the same body however its lookaheads are read. -/
theorem written?_regex (hm : p.matcher pattern = .ok m) (hw : p.written? pattern = some w) :
    w.regex = m.regex := by
  obtain ⟨lowered, flags, -, -, -, hwritten⟩ := written?_eq hm
  obtain ⟨follows, -, rfl⟩ := Option.map_eq_some_iff.mp (hwritten ▸ hw)
  rfl

/-- A check of a matcher is the lookahead read under the flags in force where the source starts. -/
theorem read?_of_follow {s : FollowSource} {f : Follow} (h : p.follow s = .ok f) :
    s.read? p.flags = some f := by
  unfold follow at h
  cases hcompile : Regex.compile s.source p.ignoreCase with
  | error e => rw [hcompile] at h; cases h
  | ok r =>
    obtain ⟨e, hparse, rfl⟩ := Regex.exists_parse?_of_compile hcompile
    rw [hcompile] at h
    cases h
    rw [FollowSource.read?, flags, hparse]
    rfl

theorem mapM_read?_of_follow {ss : List FollowSource} {fs : List Follow}
    (h : ss.mapM p.follow = .ok fs) : ss.mapM (FollowSource.read? p.flags) = some fs := by
  induction ss generalizing fs with
  | nil => cases h; rfl
  | cons s ss ih =>
    rw [List.mapM_cons] at h ⊢
    obtain ⟨f, hf, h⟩ := bind_eq_ok.mp h
    obtain ⟨rest, hrest, h⟩ := bind_eq_ok.mp h
    cases h
    rw [read?_of_follow hf, ih hrest]
    rfl

/-- Where the body of a pattern leaves the flags as they were, the lookaheads are compiled as they
are written. -/
theorem written?_eq_matcher (hm : p.matcher pattern = .ok m)
    (hflags : ∀ lowered, p.lowered? pattern = some lowered →
      Regex.Expr.flagsBehind? p.flags lowered.body = some p.flags) :
    p.written? pattern = some m := by
  obtain ⟨lowered, flags, hlowered, hfollows, hbehind, hwritten⟩ := written?_eq hm
  obtain rfl : p.flags = flags := Option.some.inj ((hflags lowered hlowered).symm.trans hbehind)
  rw [hwritten, mapM_read?_of_follow hfollows]
  rfl

/-- A matcher finds the match that backtracking finds with the lookaheads as they are written,
exactly when

* every match preferred to that one, at the same start, ends later, and
* the lookaheads tell the same, compiled and written, at all ends that the matcher tries up to
  there. -/
theorem matcher_backtracks_iff (hm : p.matcher pattern = .ok m) (hw : p.written? pattern = some w)
    (t : Text) (start : Nat) :
    m.find? t start true = w.backtrack? t start ↔
      (∀ s, w.backtrack? t start = some s →
        ∀ e ∈ (w.regex.ends t s.start).takeWhile (· != s.stop), s.stop < e) ∧
      ∀ i, start ≤ i → i ≤ t.size → ∀ e ∈ w.regex.tried t i,
        (∀ s, w.backtrack? t start = some s → i < s.start ∨ i = s.start ∧ s.stop ≤ e) →
          m.followsHold t e = w.followsHold t e :=
  Matcher.find?_eq_backtrack?_iff (written?_regex hm hw) t start

/-- A greedy repetition gives back what a lookahead refuses. -/
theorem matcher_backtracks_repetition :
    ∃ m w, matcher ⟨[], false⟩ (.source "a+(?!b)") = .ok m ∧
      written? ⟨[], false⟩ (.source "a+(?!b)") = some w ∧
      m.find? (.ofString "aab") 0 true = some ⟨0, 1⟩ ∧
      ∀ e ∈ (w.regex.ends (.ofString "aab") 0).takeWhile (· != 1), 1 < e := by
  obtain ⟨m, hm, hfind⟩ : ∃ m, matcher ⟨[], false⟩ (.source "a+(?!b)") = .ok m ∧
      m.find? (.ofString "aab") 0 true = some ⟨0, 1⟩ :=
    exists_ok (by decide +kernel)
  obtain ⟨w, hw, hback⟩ : ∃ w, written? ⟨[], false⟩ (.source "a+(?!b)") = some w ∧
      w.backtrack? (.ofString "aab") 0 = some ⟨0, 1⟩ :=
    Option.map_eq_some_iff.mp (by decide +kernel)
  have hiff := matcher_backtracks_iff hm hw (.ofString "aab") 0
  exact ⟨m, w, hm, hw, hfind, (hiff.mp (hfind.trans hback.symm)).1 _ hback⟩

/-- A branch is never tried whose match goes on behind that of an earlier branch: here backtracking
finds all of the text, and the matcher nothing. -/
theorem later_branch_untried :
    (matcher ⟨[], false⟩ (.source "(?:a|ab)(?!b)")).toOption.map
        (·.find? (.ofString "ab") 0 true) = some none ∧
      (written? ⟨[], false⟩ (.source "(?:a|ab)(?!b)")).map (·.backtrack? (.ofString "ab") 0) =
        some (some ⟨0, 2⟩) := by
  decide +kernel

/-- The flags that a body sets reach its lookaheads as they are written, but not as they are
compiled. -/
example :
    (matcher ⟨[], false⟩ (.source "(?-m)a(?=$)")).toOption.map
        (·.find? (.ofString "a\nb") 0 true) = some (some ⟨0, 1⟩) ∧
      (written? ⟨[], false⟩ (.source "(?-m)a(?=$)")).map (·.backtrack? (.ofString "a\nb") 0) =
        some none := by
  decide +kernel

end PatternScope
end Tinct
