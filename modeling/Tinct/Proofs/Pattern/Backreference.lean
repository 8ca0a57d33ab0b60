import Tinct.Pattern.Compile
import Tinct.Proofs.Regex.Splicing

/-!
# Backreferences as elements

A template splices what a region began with into the source of its end pattern, and the source is
read afterwards. Beside that stands the template in which each reference is one element, whatever
stands around it:

* `EndTemplate.unitMatcher?`: the matcher of such a template;
* `EndTemplate.find?_instantiate`: both matchers find the same, where white space counts and no
  repetition meets a spliced text, unless that is one character;
* `EndTemplate.repeated_reference_splits`: where a repetition meets a longer one, they do not.
-/

namespace Tinct

open Regex (Reading repeats)

namespace TemplatePiece

/-- The text that a reference stands for. -/
def referred? (captures : Captures) : TemplatePiece → Option String
  | .text _ => none
  | .group i => some ((captures.byIndex? i).getD "")
  | .named name => some ((captures.byName? name).getD "")

/-- The piece is read behind others, a reference as one element. -/
def read? (captures : Captures) (r : Reading) : TemplatePiece → Option Reading
  | .text source => Reading.end? source.length { r with rest := source.toList }
  | .group i => some (r.add (r.flags.unit ((captures.byIndex? i).getD "").toList) [])
  | .named name => some (r.add (r.flags.unit ((captures.byName? name).getD "").toList) [])

/-- Whether white space counts where the piece is read. -/
def blanksCount (r : Reading) : TemplatePiece → Bool
  | .text source => Reading.blanksCount source.length { r with rest := source.toList }
  | .group _ | .named _ => !r.flags.verbose

/-- The source that pieces become. -/
def spliced (captures : Captures) (ps : List TemplatePiece) : String :=
  String.join (ps.map (·.toSource captures))

/-- Whether no repetition follows a piece, unless that is a reference to one character. What
follows may stand further behind, where references to nothing are in between. -/
def detached (captures : Captures) : List TemplatePiece → Bool
  | [] => true
  | p :: ps =>
    ((p.referred? captures).any (·.length == 1) || !repeats (spliced captures ps).toList) &&
      detached captures ps

/-- Whether white space counts wherever pieces are read. -/
def blanksCountFrom (captures : Captures) : Reading → List TemplatePiece → Bool
  | _, [] => true
  | r, p :: ps => p.blanksCount r && (p.read? captures r).all (blanksCountFrom captures · ps)

variable {captures : Captures} {r w w' : Reading} {p : TemplatePiece} {ps : List TemplatePiece}

theorem toList_spliced_cons : (spliced captures (p :: ps)).toList =
    (p.toSource captures).toList ++ (spliced captures ps).toList := by
  rw [spliced, List.map_cons, String.join_cons, String.toList_append]
  rfl

/-- A reader of the spliced source follows the reader of the pieces over one of them. -/
theorem follows_read? (h : r.Follows w (spliced captures (p :: ps)).toList) (hrest : w.rest = [])
    (hblanks : p.blanksCount w = true) (hdetached : detached captures (p :: ps) = true)
    (hread : p.read? captures w = some w') :
    w'.rest = [] ∧ ∃ r', Relation.ReflTransGen Reading.Step r r' ∧
      r'.Follows w' (spliced captures ps).toList := by
  rw [toList_spliced_cons] at h
  obtain ⟨hmeets, -⟩ := (Bool.and_eq_true _ _).mp hdetached
  have hreference {s : String} (hreferred : p.referred? captures = some s)
      (hsource : p.toSource captures = escape s) (hverbose : w.flags.verbose = false) :
      ∃ r', Relation.ReflTransGen Reading.Step r r' ∧
        r'.Follows (w.add (w.flags.unit s.toList) []) (spliced captures ps).toList := by
    rw [hsource, Regex.toList_escape] at h
    refine h.unit hrest hverbose ?_
    rw [hreferred] at hmeets
    rw [String.length_toList]
    simpa using hmeets
  cases p with
  | text source =>
    obtain ⟨hsteps, hrest'⟩ := Reading.steps_of_end? hread hblanks
    have hstart : r.Follows { w with rest := source.toList } (spliced captures ps).toList := by
      obtain ⟨hsimple, hsimple', ⟨hflags, hgroup, houter, hopened, hnames⟩, hr, hlast⟩ := h
      rw [hrest, List.nil_append] at hr
      exact ⟨hsimple, hsimple', ⟨hflags, hgroup, houter, hopened, hnames⟩, hr, hlast⟩
    have hmore : repeats (spliced captures ps).toList = false := by
      simpa [referred?] using hmeets
    exact ⟨hrest', hstart.run hmore hsteps⟩
  | group i =>
    cases hread
    exact ⟨rfl, hreference rfl rfl (by simpa [blanksCount] using hblanks)⟩
  | named name =>
    cases hread
    exact ⟨rfl, hreference rfl rfl (by simpa [blanksCount] using hblanks)⟩

theorem follows_foldlM (h : r.Follows w (spliced captures ps).toList) (hrest : w.rest = [])
    (hblanks : blanksCountFrom captures w ps = true) (hdetached : detached captures ps = true)
    (hread : ps.foldlM (read? captures) w = some w') :
    w'.rest = [] ∧ ∃ r', Relation.ReflTransGen Reading.Step r r' ∧ r'.Follows w' [] := by
  induction ps generalizing r w with
  | nil =>
    cases hread
    exact ⟨hrest, r, .refl, h⟩
  | cons p ps ih =>
    obtain ⟨w₁, hpiece, hread⟩ := Option.bind_eq_some_iff.mp hread
    obtain ⟨hblank, hblanks⟩ := (Bool.and_eq_true _ _).mp hblanks
    rw [hpiece] at hblanks
    obtain ⟨hrest₁, r₁, hsteps, h₁⟩ := follows_read? h hrest hblank hdetached hpiece
    obtain ⟨-, hdetached⟩ := (Bool.and_eq_true _ _).mp hdetached
    obtain ⟨hrest', r', hsteps', h'⟩ := ih h₁ hrest₁ hblanks hdetached hread
    exact ⟨hrest', r', hsteps.trans hsteps', h'⟩

end TemplatePiece

namespace EndTemplate
variable {e : EndTemplate} {captures : Captures} {m w : Matcher}

/-- The reader of a template before its first piece. -/
def start (e : EndTemplate) : Reading :=
  let f : Regex.Flags := { ignoreCase := e.ignoreCase, multiLine := true }
  ⟨[], f, ⟨f, none, [], []⟩, [], 0, []⟩

/-- The template with each reference as one element, as an expression. -/
def unitExpr? (e : EndTemplate) (captures : Captures) : Option Regex.Expr :=
  (e.pieces.foldlM (TemplatePiece.read? captures) e.start).bind fun r =>
    if r.outer.isEmpty then some r.group.contents.expr else none

/-- The matcher of the template with each reference as one element. -/
def unitMatcher? (e : EndTemplate) (captures : Captures) : Option Matcher :=
  (e.unitExpr? captures).map fun expr => ⟨.ofExpr (e.sourceFor captures) expr, e.follows⟩

/-- Whether white space counts all over the template. -/
def blanksCount (e : EndTemplate) (captures : Captures) : Bool :=
  TemplatePiece.blanksCountFrom captures e.start e.pieces

/-- Whether no repetition follows a piece of the template, unless that is a reference to one
character. -/
def detached (e : EndTemplate) (captures : Captures) : Bool :=
  TemplatePiece.detached captures e.pieces

/-- The matcher of a region is that of its source. -/
theorem instantiate_eq_ok (h : e.instantiate captures = .ok m) :
    ∃ expr, Regex.Expr.parse? e.start.flags (e.sourceFor captures) = some expr ∧
      m = ⟨.ofExpr (e.sourceFor captures) expr, e.follows⟩ := by
  obtain ⟨regex, hregex, h⟩ := bind_eq_ok.mp h
  cases h
  unfold compileRegex at hregex
  cases hcompile : Regex.compile (e.sourceFor captures) e.ignoreCase with
  | error error => rw [hcompile] at hregex; cases error <;> cases hregex
  | ok r =>
    obtain ⟨expr, hparse, rfl⟩ := Regex.exists_parse?_of_compile hcompile
    rw [hcompile] at hregex
    cases hregex
    exact ⟨expr, hparse, rfl⟩

/-- What is read of a spliced source and of the template is the same. -/
theorem parse?_eq_unitExpr? {expr expr' : Regex.Expr}
    (hparse : Regex.Expr.parse? e.start.flags (e.sourceFor captures) = some expr)
    (hunit : e.unitExpr? captures = some expr') (hblanks : e.blanksCount captures = true)
    (hdetached : e.detached captures = true) : expr = expr' := by
  obtain ⟨w, hread, hw⟩ := Option.bind_eq_some_iff.mp hunit
  have hsimple : e.start.Simple := List.forall_mem_singleton.mpr (.empty _ _)
  have hstart : Reading.Follows { e.start with rest := (e.sourceFor captures).toList } e.start
      (TemplatePiece.spliced captures e.pieces).toList :=
    ⟨hsimple, hsimple, ⟨rfl, ⟨rfl, rfl, rfl, rfl⟩, .nil, rfl, rfl⟩, rfl, .inl trivial⟩
  obtain ⟨hrest, r, hsteps, h⟩ :=
    TemplatePiece.follows_foldlM hstart rfl hblanks hdetached hread
  have hrest' : r.rest = [] := by rw [h.rest, hrest]; rfl
  obtain ⟨-, rfl⟩ := Reading.of_whole? (Reading.whole?_of_parse? hsteps hrest' hparse)
  have hcontents : r.group.contents.expr = w.group.contents.expr :=
    h.alike.group.contents (h.simple _ (List.mem_cons_self ..))
      (h.simple' _ (List.mem_cons_self ..))
  split at hw
  · cases hw
    exact hcontents
  · cases hw

/-- The matcher of a region finds what the template finds in which each reference is one element,
where white space counts all over the template and no repetition follows a piece of it, unless
that is a reference to one character. -/
theorem find?_instantiate (hm : e.instantiate captures = .ok m)
    (hw : e.unitMatcher? captures = some w) (hblanks : e.blanksCount captures = true)
    (hdetached : e.detached captures = true) (t : Text) (start : Nat) (allowEmpty : Bool) :
    m.find? t start allowEmpty = w.find? t start allowEmpty := by
  obtain ⟨expr, hparse, rfl⟩ := instantiate_eq_ok hm
  obtain ⟨expr', hunit, rfl⟩ := Option.map_eq_some_iff.mp hw
  rw [parse?_eq_unitExpr? hparse hunit hblanks hdetached]

/-- A captured asterisk is no repetition. -/
theorem find?_instantiate_asterisk :
    let e : EndTemplate := ⟨[.text "^", .group 1, .text "$"], [], false⟩
    let captures : Captures := [⟨none, some "<a*>"⟩, ⟨none, some "a*"⟩]
    ∃ m w, e.instantiate captures = .ok m ∧ e.unitMatcher? captures = some w ∧
      e.blanksCount captures = true ∧ e.detached captures = true ∧
      w.find? (.ofString "aa\na*") 0 true = some ⟨3, 5⟩ ∧
      m.find? (.ofString "aa\na*") 0 true = w.find? (.ofString "aa\na*") 0 true := by
  intro e captures
  obtain ⟨m, hm, -⟩ : ∃ m, e.instantiate captures = .ok m ∧ m.groupCount = 1 :=
    exists_ok (by decide +kernel)
  obtain ⟨w, hw, hfind⟩ : ∃ w, e.unitMatcher? captures = some w ∧
      w.find? (.ofString "aa\na*") 0 true = some ⟨3, 5⟩ :=
    Option.map_eq_some_iff.mp (by decide +kernel)
  have hblanks : e.blanksCount captures = true := by decide +kernel
  have hdetached : e.detached captures = true := by decide +kernel
  exact ⟨m, w, hm, hw, hblanks, hdetached, hfind,
    find?_instantiate hm hw hblanks hdetached (.ofString "aa\na*") 0 true⟩

/-- A repetition behind a reference to two characters repeats the second of them. -/
theorem repeated_reference_splits :
    ∃ begin e m w, PatternScope.matcher ⟨[], false⟩ (.source "<([a-z]+)>") = .ok begin ∧
      PatternScope.endPattern ⟨[], false⟩ (.source "^\\1+$") begin = .ok (.template e) ∧
      e.instantiate (begin.captures (.ofString "<ab>\nabab") ⟨0, 4⟩) = .ok m ∧
      e.unitMatcher? (begin.captures (.ofString "<ab>\nabab") ⟨0, 4⟩) = some w ∧
      m.find? (.ofString "<ab>\nabab") 4 true = none ∧
      w.find? (.ofString "<ab>\nabab") 4 true = some ⟨5, 9⟩ := by
  have hfind : ((PatternScope.matcher ⟨[], false⟩ (.source "<([a-z]+)>")).toOption.bind fun begin =>
      (PatternScope.endPattern ⟨[], false⟩ (.source "^\\1+$") begin).toOption.bind fun pattern =>
        pattern.casesOn (fun _ => none) fun e =>
          (e.instantiate (begin.captures (.ofString "<ab>\nabab") ⟨0, 4⟩)).toOption.bind fun m =>
            (e.unitMatcher? (begin.captures (.ofString "<ab>\nabab") ⟨0, 4⟩)).map fun w =>
              (m.find? (.ofString "<ab>\nabab") 4 true, w.find? (.ofString "<ab>\nabab") 4 true)) =
      some (none, some ⟨5, 9⟩) := by
    decide +kernel
  obtain ⟨begin, hbegin, hfind⟩ := Option.bind_eq_some_iff.mp hfind
  obtain ⟨pattern, hpattern, hfind⟩ := Option.bind_eq_some_iff.mp hfind
  cases pattern with
  | static m => cases hfind
  | template e =>
    obtain ⟨m, hm, hfind⟩ := Option.bind_eq_some_iff.mp hfind
    obtain ⟨w, hw, hfind⟩ := Option.map_eq_some_iff.mp hfind
    obtain ⟨hm', hw'⟩ := Prod.mk.inj hfind
    exact ⟨begin, e, m, w, eq_ok_of_toOption_eq_some hbegin, eq_ok_of_toOption_eq_some hpattern,
      eq_ok_of_toOption_eq_some hm, hw, hm', hw'⟩

end EndTemplate
end Tinct
