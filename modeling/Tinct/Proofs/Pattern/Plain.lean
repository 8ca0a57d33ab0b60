import Tinct.Proofs.Pattern.Locality
import Tinct.Proofs.Regex.Splicing

/-!
# Plain sources

A regular expression is plain where white space counts and the pattern syntax sees each of its
elements as it is:

* `Regex.Reading.plainEnd?`: the reader of plain sources;
* `Regex.Reading.Cut`: what has been read of a plain source, cut into elements of the pattern
  syntax;
* `PatternScope.isPlain_of_flat`: sources whose classes hold no other ones are plain;
* `PatternScope.matcher_of_isPlain`: the matcher of a plain source is the regular expression itself.
-/

namespace Tinct
namespace Regex

/-- The reading of a source before its first element. -/
def Reading.start (f : Flags) (cs : List Char) : Reading := ⟨cs, f, ⟨f, none, [], []⟩, [], 0, []⟩

namespace Reading

/-- One element is read where white space counts, if it is plain. -/
def plainStep? (r : Reading) : Option Reading := do
  let (e, rest) ← r.flags.element? r.rest
  if !r.flags.verbose && e.isPlain (r.rest.take (r.rest.length - rest.length)) then
    r.take? rest e
  else none

/-- Reads on up to the end of a source, if all of its elements are plain. -/
def plainEnd? : Nat → Reading → Option Reading
  | fuel, r =>
    if r.rest.isEmpty then some r
    else
      match fuel with
      | 0 => none
      | fuel + 1 => r.plainStep?.bind (plainEnd? fuel)

/-- A plain element `e` is read from `text`, which is cut into `ls`. -/
structure Reads (r : Reading) (e : Element) (text : List Char) (ls : List Lexeme) (r' : Reading) :
    Prop extends r.flags.ElementText e text r'.rest where
  verbose : r.flags.verbose = false
  rest : r.rest = text ++ r'.rest
  shows : e.Shows text ls
  element : r.flags.element? r.rest = some (e, r'.rest)
  take : r.take? r'.rest e = some r'

/-- What stands between two readings of a plain source, cut into elements. -/
inductive Cut : Reading → List Lexeme → Reading → Prop
  | nil (r : Reading) : Cut r [] r
  | cons {r r₁ r' : Reading} {e : Element} {text : List Char} {ls behind : List Lexeme}
    (hreads : r.Reads e text ls r₁) : Cut r₁ behind r' → Cut r (ls ++ behind) r'

variable {r r₁ r' : Reading} {e : Element} {text : List Char} {ls behind : List Lexeme} {fuel : Nat}

theorem Reads.rest_ne_nil (h : r.Reads e text ls r') : r.rest ≠ [] := by
  rw [h.rest]
  exact List.append_ne_nil_of_left_ne_nil h.hasText.ne_nil _

theorem Reads.step? (h : r.Reads e text ls r') : r.step? = some r' := by
  rw [step?_eq h.rest_ne_nil, h.element]
  exact h.take

theorem reads_of_plainStep? (h : r.plainStep? = some r') :
    ∃ e text ls, r.Reads e text ls r' := by
  obtain ⟨⟨e, rest⟩, helement, h⟩ := Option.bind_eq_some_iff.mp h
  dsimp only at h
  split at h
  · rename_i hplain
    obtain ⟨hverbose, hplain⟩ := (Bool.and_eq_true _ _).mp hplain
    have hverbose : r.flags.verbose = false := by simpa using hverbose
    obtain ⟨text, hrest, htext⟩ := Flags.element?_text hverbose helement
    have hrest' := take?_rest h
    rw [hrest, List.length_append, Nat.add_sub_cancel, List.take_left] at hplain
    obtain ⟨ls, hls⟩ := e.exists_shows htext.hasText hplain
    rw [← hrest'] at hrest htext h helement
    exact ⟨e, text, ls, htext, hverbose, hrest, hls, helement, h⟩
  · cases h

/-- A plain source is cut into elements. -/
theorem cut_of_plainEnd? (h : r.plainEnd? fuel = some r') : ∃ ls, r.Cut ls r' ∧ r'.rest = [] := by
  induction fuel generalizing r with
  | zero =>
    unfold plainEnd? at h
    split at h
    · rename_i hempty
      cases h
      exact ⟨[], .nil r', List.isEmpty_iff.mp hempty⟩
    · cases h
  | succ fuel ih =>
    unfold plainEnd? at h
    split at h
    · rename_i hempty
      cases h
      exact ⟨[], .nil r', List.isEmpty_iff.mp hempty⟩
    · obtain ⟨r₁, hstep, hend⟩ := Option.bind_eq_some_iff.mp h
      obtain ⟨e, text, ls, hreads⟩ := reads_of_plainStep? hstep
      obtain ⟨behind, hcut, hrest⟩ := ih hend
      exact ⟨ls ++ behind, .cons hreads hcut, hrest⟩

/-- How many groups are open behind an element, and how many have been opened that record. -/
theorem Reads.counts (h : r.Reads e text ls r') :
    Tinct.closes? r.outer.length ls = some r'.outer.length ∧
      r'.opened = r.opened + recorded ls := by
  have htake := h.take
  obtain ⟨kind, hkind, rfl⟩ | ⟨hkind, hinner⟩ := h.shows.kinds
  · cases e with
    | item i => cases hkind
    | numbered name =>
      rw [take?] at htake
      split at htake
      · cases htake
      · rw [← Option.some.inj htake]
        cases name <;> cases hkind <;>
          exact ⟨by simp [Tinct.closes?, LexemeKind.opensGroup, openNumbered], rfl⟩
    | flags f =>
      cases hkind
      rw [← Option.some.inj htake]
      exact ⟨by simp [Tinct.closes?, LexemeKind.opensGroup], rfl⟩
    | flagged f =>
      cases hkind
      rw [← Option.some.inj htake]
      exact ⟨by simp [Tinct.closes?, LexemeKind.opensGroup], rfl⟩
    | close =>
      cases hkind
      rw [take?, closeGroup?.eq_def] at htake
      split at htake
      · cases htake
      · rename_i houter
        rw [← Option.some.inj htake, houter]
        exact ⟨by simp [Tinct.closes?, LexemeKind.opensGroup], rfl⟩
    | alternate =>
      cases hkind
      rw [← Option.some.inj htake]
      exact ⟨by simp [Tinct.closes?, LexemeKind.opensGroup], rfl⟩
    | repeated min max lazyMark => cases hkind
  · rw [closes?_of_isInner hinner,
      recorded_eq_zero fun l hl => LexemeKind.records_of_isInner (hinner l hl)]
    cases e with
    | item i =>
      rw [← Option.some.inj htake]
      exact ⟨rfl, rfl⟩
    | repeated min max lazyMark =>
      rw [take?, again?.eq_def] at htake
      split at htake
      · cases htake
      · split at htake
        · cases htake
        · rw [← Option.some.inj htake]
          exact ⟨rfl, rfl⟩
    | numbered name => cases name <;> cases hkind
    | _ => cases hkind

namespace Cut

theorem steps (h : r.Cut ls r') : Relation.ReflTransGen Step r r' := by
  induction h with
  | nil => exact .refl
  | cons hreads _ ih => exact .head ⟨hreads.rest_ne_nil, hreads.verbose, hreads.step?⟩ ih

theorem flatMap_text (h : r.Cut ls r') : r.rest = ls.flatMap (·.text) ++ r'.rest := by
  induction h with
  | nil => rfl
  | cons hreads _ ih =>
    rw [hreads.rest, ih, List.flatMap_append, hreads.shows.texts, List.append_assoc]

theorem closes? (h : r.Cut ls r') : Tinct.closes? r.outer.length ls = some r'.outer.length := by
  induction h with
  | nil => rfl
  | cons hreads _ ih => rw [closes?_append, hreads.counts.1, Option.bind_some, ih]

theorem isOrdinary (h : r.Cut ls r') : ∀ l ∈ ls, l.kind.isOrdinary = true := by
  induction h with
  | nil => exact nofun
  | cons hreads _ ih => exact List.forall_mem_append.mpr ⟨hreads.shows.isOrdinary, ih⟩

/-- The elements are those of the pattern syntax, whatever stands behind them. -/
theorem cuts (h : r.Cut ls r') (hrest : r'.rest = []) {more : List Char}
    (hquestion : more.head? ≠ some '?') (hmore : Cuts more behind) :
    Cuts (r.rest ++ more) (ls ++ behind) := by
  induction h with
  | nil =>
    rw [hrest]
    exact hmore
  | cons hreads _ ih =>
    rw [hreads.rest, List.append_assoc, List.append_assoc]
    refine hreads.shows.cuts _ _ (fun he hhead => ?_) (ih hrest)
    rw [List.head?_append, Option.or_eq_some_iff] at hhead
    exact hhead.elim (hreads.opened he) fun h => hquestion h.2

/-- A source in which each group closes is cut into ordinary elements. -/
theorem ordinary {f : Flags} {cs : List Char} (h : (start f cs).Cut ls r') (hrest : r'.rest = [])
    (houter : r'.outer = []) : Cuts.Ordinary cs ls := by
  have hcuts : Cuts (cs ++ []) (ls ++ []) := h.cuts hrest (by simp) .nil
  have hcloses : Tinct.closes? 0 ls = some r'.outer.length := h.closes?
  rw [houter] at hcloses
  rw [List.append_nil, List.append_nil] at hcuts
  exact ⟨hcuts, h.isOrdinary, hcloses⟩

end Cut

/-! ### Flat sources -/

/-- One element is read where white space counts, if it is no class that holds another one. -/
def FlatStep (r r' : Reading) : Prop :=
  r.Step r' ∧ ∀ e text, r.flags.element? r.rest = some (e, r'.rest) → r.rest = text ++ r'.rest →
    e.isFlat text = true

theorem FlatStep.plainStep? (h : r.FlatStep r') :
    r.plainStep? = some r' ∧ r'.rest.length < r.rest.length := by
  obtain ⟨⟨hne, hverbose, hstep⟩, hflat⟩ := h
  rw [step?_eq hne] at hstep
  obtain ⟨⟨e, rest⟩, helement, htake⟩ := Option.bind_eq_some_iff.mp hstep
  obtain ⟨text, hrest, htext⟩ := Flags.element?_text hverbose helement
  obtain rfl : r'.rest = rest := take?_rest htake
  have hplain := e.isPlain_of_isFlat htext.hasText (hflat e text helement hrest)
  have htake' : r.rest.take (r.rest.length - r'.rest.length) = text := by
    rw [hrest, List.length_append, Nat.add_sub_cancel, List.take_left]
  refine ⟨Option.bind_eq_some_iff.mpr ⟨(e, r'.rest), helement, ?_⟩, ?_⟩
  · dsimp only
    rw [htake', hverbose, hplain]
    exact htake
  · rw [hrest, List.length_append]
    have hpositive := List.length_pos_iff.mpr htext.hasText.ne_nil
    omega

/-- Where each class holds no other one, a source is plain. -/
theorem plainEnd?_of_flat (h : Relation.ReflTransGen FlatStep r r') (hrest : r'.rest = [])
    (hfuel : r.rest.length ≤ fuel) : r.plainEnd? fuel = some r' := by
  induction h using Relation.ReflTransGen.head_induction_on generalizing fuel with
  | refl =>
    unfold plainEnd?
    rw [hrest]
    rfl
  | @head r r₁ hstep _ ih =>
    obtain ⟨hplain, hlength⟩ := hstep.plainStep?
    cases fuel with
    | zero => omega
    | succ fuel =>
      unfold plainEnd?
      rw [if_neg fun hempty => hstep.1.1 (List.isEmpty_iff.mp hempty), hplain]
      exact ih (by omega)

end Reading

/-- What is read of a plain source. -/
def Flags.readPlain? (f : Flags) (source : String) : Option Reading :=
  (Reading.start f source.toList).plainEnd? source.length

end Regex

namespace PatternScope

/-- Whether a source is plain. -/
def isPlain (p : PatternScope) (source : String) : Bool := (p.flags.readPlain? source).isSome

/-- A source is plain if white space counts in it, its groups have words for names and its classes
hold no other ones. -/
theorem isPlain_of_flat {p : PatternScope} {source : String} {r : Regex.Reading}
    (h : Relation.ReflTransGen Regex.Reading.FlatStep (.start p.flags source.toList) r)
    (hrest : r.rest = []) : p.isPlain source = true := by
  have hend := Regex.Reading.plainEnd?_of_flat h hrest (Nat.le_refl source.length)
  exact Option.isSome_iff_exists.mpr ⟨r, hend⟩

/-- A plain source is cut into elements, and what has been read of it is what it stands for. -/
theorem exists_cut {p : PatternScope} {source : String} {e : Regex.Expr}
    (hparse : Regex.Expr.parse? p.flags source = some e) (hplain : p.isPlain source = true) :
    ∃ ls r, (Regex.Reading.start p.flags source.toList).Cut ls r ∧ r.rest = [] ∧
      r.whole? = some e := by
  obtain ⟨r, hend⟩ := Option.isSome_iff_exists.mp hplain
  obtain ⟨ls, hcut, hrest⟩ := Regex.Reading.cut_of_plainEnd? hend
  exact ⟨ls, r, hcut, hrest, Regex.Reading.whole?_of_parse? hcut.steps hrest hparse⟩

/-- A plain regular expression is its own matcher. -/
theorem matcher_of_isPlain (p : PatternScope) {source : String} {r : Regex}
    (hcompile : Regex.compile source p.ignoreCase = .ok r) (hplain : p.isPlain source = true) :
    p.matcher (.source source) = .ok ⟨r, []⟩ := by
  obtain ⟨e, hparse, -⟩ := Regex.exists_parse?_of_compile hcompile
  obtain ⟨ls, w, hcut, hrest, hwhole⟩ := exists_cut hparse hplain
  have hordinary := hcut.ordinary hrest (Regex.Reading.of_whole? hwhole).1
  refine bind_eq_ok.mpr ⟨source, hordinary.assemble_source p.named, ?_⟩
  exact bind_eq_ok.mpr ⟨false, hordinary.hasBackreference_eq, hordinary.finish_eq p hcompile⟩

end PatternScope
end Tinct
