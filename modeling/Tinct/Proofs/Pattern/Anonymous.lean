import Tinct.Proofs.Pattern.Assembly
import Tinct.Proofs.Pattern.Outside
import Tinct.Proofs.Pattern.Plain
import Tinct.Proofs.Regex.Anonymous

/-!
# Plain sources whose groups do not record

The groups of an operand and of a named pattern record only if they have a name. A plain source
that stands there is read like the source itself, but for these groups:

* `Regex.Reading.Reads.element?_anonymous`: how an element is read that may have lost its number;
* `Regex.Reading.Cut.beside`: both sources are read side by side;
* `Regex.Reading.Cut.outermost_eq`: what is left of a source whose flags and whose choices stand
  inside of groups;
* `Cuts.Ordinary.assembleWith_source`: what a plain source becomes as an operand.
-/

namespace Tinct

namespace Lexeme
variable {l : Lexeme}

theorem anonymous_cases (l : Lexeme) :
    l.anonymous = l ∨ l.kind = .open ∧ l.anonymous = ⟨.uncapturedOpen, opener⟩ := by
  rw [anonymous]
  split
  · exact .inr ⟨‹_›, rfl⟩
  · exact .inl rfl

theorem opensGroup_anonymous (l : Lexeme) : l.anonymous.kind.opensGroup = l.kind.opensGroup := by
  obtain h | ⟨hkind, h⟩ := l.anonymous_cases
  · rw [h]
  · rw [h, hkind]
    rfl

theorem kind_anonymous_ne (l : Lexeme) : l.anonymous.kind ≠ .open := by
  rw [anonymous]
  split
  · exact LexemeKind.noConfusion
  · assumption

theorem isOrdinary_anonymous (h : l.kind.isOrdinary = true) :
    l.anonymous.kind.isOrdinary = true := by
  obtain heq | ⟨-, heq⟩ := l.anonymous_cases
  · rwa [heq]
  · rw [heq]
    rfl

/-- An element that opens no group stays what it is. -/
theorem kind_anonymous_iff {kind : LexemeKind} (h : kind.opensGroup = false) :
    l.anonymous.kind = kind ↔ l.kind = kind := by
  obtain heq | ⟨hkind, heq⟩ := l.anonymous_cases
  · rw [heq]
  · rw [heq, hkind]
    constructor
    all_goals
      rintro rfl
      cases h

/-- A parenthesis stays in front. -/
theorem head?_anonymous (hne : l.text ≠ []) (hopen : l.kind = .open → l.text = ['('])
    (as bs : List Char) : (l.anonymous.text ++ as).head? = (l.text ++ bs).head? := by
  obtain heq | ⟨hkind, heq⟩ := l.anonymous_cases
  · rw [heq, List.head?_append_of_ne_nil _ hne, List.head?_append_of_ne_nil _ hne]
  · rw [heq, hopen hkind]
    rfl

end Lexeme

theorem Cuts.text_ne_nil {cs : List Char} {ls : List Lexeme} (h : Cuts cs ls) :
    ∀ l ∈ ls, l.text ≠ [] := by
  induction h with
  | nil => exact nofun
  | plain _ _ ih => exact List.forall_mem_cons.mpr ⟨List.cons_ne_nil _ _, ih⟩
  | lexeme _ hne _ _ ih => exact List.forall_mem_cons.mpr ⟨hne, ih⟩

/-! ## Elements outside every group -/

theorem closes?_anonymous (depth : Nat) (ls : List Lexeme) :
    closes? depth (ls.map (·.anonymous)) = closes? depth ls := by
  have hclose (l : Lexeme) : l.anonymous.kind = .close ↔ l.kind = .close :=
    Lexeme.kind_anonymous_iff rfl
  induction ls generalizing depth with
  | nil => rfl
  | cons l ls ih =>
    rw [List.map_cons]
    cases depth <;> simp only [closes?, l.opensGroup_anonymous, hclose, ih]

section outside
variable {kind : LexemeKind} {ls : List Lexeme}

theorem hasOutside_of_isInner (hkind : kind.isInner = false)
    (h : ∀ l ∈ ls, l.kind.isInner = true) (depth : Nat) : hasOutside kind depth ls = false := by
  induction ls with
  | nil => rfl
  | cons l ls ih =>
    obtain ⟨hl, hls⟩ := List.forall_mem_cons.mp h
    have hstays := LexemeKind.stays_of_isInner hl
    have hne : l.kind ≠ kind := fun heq => by rw [heq, hkind] at hl; cases hl
    simp [hasOutside, hstays, hne, ih hls]

theorem hasOutside_anonymous (hkind : kind.opensGroup = false) (depth : Nat) (ls : List Lexeme) :
    hasOutside kind depth (ls.map (·.anonymous)) = hasOutside kind depth ls := by
  have hclose (l : Lexeme) : l.anonymous.kind = .close ↔ l.kind = .close :=
    Lexeme.kind_anonymous_iff rfl
  have hsame (l : Lexeme) : l.anonymous.kind = kind ↔ l.kind = kind :=
    Lexeme.kind_anonymous_iff hkind
  induction ls generalizing depth with
  | nil => rfl
  | cons l ls ih =>
    simp only [List.map_cons, hasOutside, l.opensGroup_anonymous, hclose, hsame, ih]

end outside

/-! ## Elements of a regular expression -/

namespace Regex

namespace Element
variable {e : Element} {text : List Char} {ls : List Lexeme}

/-- A parenthesis that opens a group without a name stands by itself. -/
theorem Shows.text_of_open (h : e.Shows text ls) (htext : e.HasText text) {l : Lexeme}
    (hl : l ∈ ls) (hopen : l.kind = .open) : e = .numbered none ∧ ls = [⟨.open, ['(']⟩] := by
  obtain ⟨kind, hkind, rfl⟩ | ⟨-, hinner⟩ := h.kinds
  · obtain rfl := List.mem_singleton.mp hl
    obtain rfl : kind = .open := hopen
    cases htext <;> cases hkind
    exact ⟨rfl, rfl⟩
  · have hinner := hinner l hl
    rw [hopen] at hinner
    cases hinner

/-- An element shows as other ones only if it opens a group without a name. -/
theorem Shows.anonymous_cases (h : e.Shows text ls) (htext : e.HasText text) :
    e = .numbered none ∧ ls = [⟨.open, ['(']⟩] ∨
      e ≠ .numbered none ∧ ls.map (·.anonymous) = ls := by
  by_cases hopen : ∃ l ∈ ls, l.kind = .open
  · obtain ⟨l, hl, hopen⟩ := hopen
    exact .inl (h.text_of_open htext hl hopen)
  · refine .inr ⟨?_, ?_⟩
    · rintro rfl
      obtain ⟨kind, hkind, rfl⟩ | ⟨hkind, -⟩ := h.kinds
      · cases hkind
        exact hopen ⟨_, List.mem_singleton_self _, rfl⟩
      · cases hkind
    · refine (List.map_congr_left fun l hl => ?_).trans (List.map_id ls)
      exact Lexeme.anonymous_of_ne fun hl' => hopen ⟨l, hl, hl'⟩

end Element

namespace Reading
variable {r r' w w₁ w' : Reading} {e : Element} {text more : List Char} {ls behind : List Lexeme}

/-! ## What stands behind an element -/

namespace Cut

theorem text_ne_nil (h : w.Cut ls w') (hrest : w'.rest = []) : ∀ l ∈ ls, l.text ≠ [] := by
  have hcuts : Cuts (w.rest ++ []) (ls ++ []) := h.cuts hrest (by simp) .nil
  rw [List.append_nil ls] at hcuts
  exact hcuts.text_ne_nil

theorem text_of_open (h : w.Cut ls w') : ∀ l ∈ ls, l.kind = .open → l.text = ['('] := by
  induction h with
  | nil => exact nofun
  | cons hreads _ ih =>
    refine List.forall_mem_append.mpr ⟨fun l hl hopen => ?_, ih⟩
    obtain ⟨-, rfl⟩ := hreads.shows.text_of_open hreads.hasText hl hopen
    rw [List.mem_singleton.mp hl]

end Cut

/-- Elements go on alike where their groups do not record. -/
theorem goesOnLike_anonymous (hne : ∀ l ∈ ls, l.text ≠ [])
    (hopen : ∀ l ∈ ls, l.kind = .open → l.text = ['(']) (hmore : repeats more = false) :
    GoesOnLike (ls.flatMap (·.text)) ((ls.map (·.anonymous)).flatMap (·.text) ++ more) := by
  have hend {c : Char} (hc : "?*+\x7b".toList.contains c = true) : more.head? ≠ some c := by
    intro hhead
    rw [repeats, hhead, Option.any_some, hc] at hmore
    cases hmore
  cases ls with
  | nil => exact ⟨fun h => absurd h (hend (by decide)), fun h => absurd h (hend (by decide))⟩
  | cons l ls =>
    obtain ⟨hl, hls⟩ := List.forall_mem_cons.mp hne
    obtain ⟨hlopen, hlsopen⟩ := List.forall_mem_cons.mp hopen
    rw [List.map_cons, List.flatMap_cons, List.flatMap_cons, List.append_assoc]
    refine ⟨fun h => (Lexeme.head?_anonymous hl hlopen _ _).symm.trans h, fun h => ?_⟩
    have hbrace := (Lexeme.head?_anonymous hl hlopen _ (ls.flatMap (·.text))).symm.trans h
    refine ⟨hbrace, ?_⟩
    rw [List.head?_append_of_ne_nil _ hl] at hbrace
    obtain ⟨text, htext⟩ := List.head?_eq_some_iff.mp hbrace
    have hsame : l.anonymous = l := Lexeme.anonymous_of_ne fun hkind => by
      rw [hlopen hkind] at hbrace
      cases hbrace
    rw [hsame, htext]
    cases text with
    | cons d text => exact fun c hc => hc
    | nil =>
      -- the brace stands by itself, and what follows it goes on with the same character
      intro c hc
      cases ls with
      | nil => cases hc
      | cons k ls =>
        obtain ⟨hk, -⟩ := List.forall_mem_cons.mp hls
        obtain ⟨hkopen, -⟩ := List.forall_mem_cons.mp hlsopen
        rw [List.map_cons, List.flatMap_cons, List.append_assoc]
        exact (Lexeme.head?_anonymous hk hkopen _ _).trans hc

/-! ## Side by side -/

/-- An element is read as before, but that a group without a name does not record. -/
theorem Reads.element?_anonymous (h : w.Reads e text ls w₁) {rest : List Char}
    (hlike : GoesOnLike w₁.rest rest) :
    w.flags.element? ((ls.map (·.anonymous)).flatMap (·.text) ++ rest) =
      some (e.anonymous w.flags, rest) := by
  obtain ⟨rfl, rfl⟩ | ⟨hne, hls⟩ := h.shows.anonymous_cases h.hasText
  · exact Flags.element?_opener h.verbose rest
  · have hsame : e.anonymous w.flags = e := by
      cases e with
      | numbered name =>
        cases name with
        | none => exact absurd rfl hne
        | some name => rfl
      | _ => rfl
    rw [hls, h.shows.texts, hsame]
    exact h.read rest hlike

theorem Step.take? (h : r.Step r') {rest : List Char}
    (helement : r.flags.element? r.rest = some (e, rest)) : r.take? rest e = some r' := by
  obtain ⟨hne, -, hstep⟩ := h
  rwa [step?_eq hne, helement] at hstep

/-- Only an element of a kind stands outside of every group as one of the kind. -/
theorem Reads.hasOutside_eq (h : w.Reads e text ls w₁) {kind : LexemeKind}
    (hkind : kind = .alternate ∨ kind = .flags) :
    hasOutside kind w.outer.length ls = true ↔ e.kind? = some kind ∧ w.outer = [] := by
  obtain ⟨k, hk, rfl⟩ | ⟨hnone, hinner⟩ := h.shows.kinds
  · rw [hk, Option.some.injEq, ← List.length_eq_zero_iff]
    obtain rfl | rfl := hkind <;> cases k <;> simp [hasOutside, LexemeKind.opensGroup]
  · have hkind' : kind.isInner = false := by obtain rfl | rfl := hkind <;> rfl
    rw [hasOutside_of_isInner hkind' hinner, hnone]
    simp

variable {g₀ : OpenGroup} {outer₀ : List OpenGroup} {rest : List Char}

/-- An element of a plain source is read beside its own. -/
theorem Beside.step (h : Beside g₀ outer₀ r w) (hreads : w.Reads e text ls w₁)
    (hrest : r.rest = (ls.map (·.anonymous)).flatMap (·.text) ++ rest)
    (hlike : GoesOnLike w₁.rest rest)
    (hbranch : e = .alternate → w.outer = [] → g₀.items = []) (hstep : r.Step r') :
    Beside g₀ outer₀ r' w₁ ∧ r'.rest = rest := by
  have helement := hreads.element?_anonymous hlike
  rw [← hrest, ← h.flags] at helement
  have htake := hstep.take? helement
  have hyields := Flags.element?_yields hreads.element
  refine ⟨h.take? (fun i hi => ?_) (fun min max lazyMark hrepeated => ?_) hbranch hreads.take htake,
    take?_rest htake⟩
  · subst hi
    exact hyields.anonymized
  · subst hrepeated
    exact hyields.le

/-- A plain source and the one whose groups do not record are read side by side. -/
theorem Cut.beside (h : w.Cut ls w') (hrest : w'.rest = []) (hbeside : Beside g₀ outer₀ r w)
    (hr : r.rest = (ls.map (·.anonymous)).flatMap (·.text) ++ more) (hmore : repeats more = false)
    (hbranch : hasOutside .alternate w.outer.length ls = true → g₀.items = [])
    (hends : r.Ends) :
    ∃ r', Relation.ReflTransGen Step r r' ∧ r'.rest = more ∧ Beside g₀ outer₀ r' w' := by
  induction h generalizing r with
  | nil => exact ⟨r, .refl, hr, hbeside⟩
  | @cons w w₁ w' e text ls behind hreads hcut ih =>
    have hlike : GoesOnLike w₁.rest ((behind.map (·.anonymous)).flatMap (·.text) ++ more) := by
      rw [hcut.flatMap_text, hrest, List.append_nil]
      exact goesOnLike_anonymous (hcut.text_ne_nil hrest) hcut.text_of_open hmore
    rw [List.map_append, List.flatMap_append, List.append_assoc] at hr
    rw [hasOutside_append hreads.counts.1, Bool.or_eq_true,
      hreads.hasOutside_eq (.inl rfl)] at hbranch
    have hne : r.rest ≠ [] := by
      have helement := hreads.element?_anonymous hlike
      rw [← hr] at helement
      rintro hnil
      rw [hnil] at helement
      cases helement
    -- the whole source is read, so the reader does not stop in front of the element
    obtain ⟨r₁, hstep⟩ := hends.exists_step hne (hbeside.flags ▸ hreads.verbose)
    obtain ⟨hbeside, hr₁⟩ := hbeside.step hreads hr hlike
      (fun he houter => hbranch (.inl ⟨he ▸ rfl, houter⟩)) hstep
    obtain ⟨r', hsteps, hr', hbeside⟩ :=
      ih hrest hbeside hr₁ (fun hbehind => hbranch (.inr hbehind)) (hends.of_step hstep)
    exact ⟨r', .head hstep hsteps, hr', hbeside⟩

/-! ## Flags and choices inside of groups -/

/-- The flags in force in the outermost group, and its branches that have ended, once all other
groups are closed. -/
def outermost : Flags → OpenGroup → List OpenGroup → Flags × List Item
  | f, g, [] => (f, g.alternatives)
  | _, g, p :: outer => outermost g.outside p outer

theorem outermost_add (f : Flags) (g : OpenGroup) (i : Item) (outer : List OpenGroup) :
    outermost f (g.add i) outer = outermost f g outer := by
  cases outer <;> rfl

theorem take?_outermost (htake : w.take? rest e = some w') :
    ((∀ f, e = .flags f → w.outer ≠ []) →
      (outermost w'.flags w'.group w'.outer).1 = (outermost w.flags w.group w.outer).1) ∧
    ((e = .alternate → w.outer ≠ []) →
      (outermost w'.flags w'.group w'.outer).2 = (outermost w.flags w.group w.outer).2) := by
  cases e with
  | item i =>
    cases htake
    rw [add, outermost_add]
    exact ⟨fun _ => rfl, fun _ => rfl⟩
  | numbered name =>
    rw [Reading.take?] at htake
    split at htake
    · cases htake
    · cases htake
      exact ⟨fun _ => rfl, fun _ => rfl⟩
  | flags f =>
    cases htake
    rw [outermost_add]
    cases houter : w.outer with
    | nil => exact ⟨fun hinside => absurd rfl (hinside f rfl), fun _ => rfl⟩
    | cons p outer => exact ⟨fun _ => rfl, fun _ => rfl⟩
  | flagged f =>
    cases htake
    exact ⟨fun _ => rfl, fun _ => rfl⟩
  | close =>
    rw [Reading.take?, closeGroup?.eq_def] at htake
    split at htake
    · cases htake
    · rename_i houter
      cases htake
      rw [outermost_add, houter]
      exact ⟨fun _ => rfl, fun _ => rfl⟩
  | alternate =>
    cases htake
    cases houter : w.outer with
    | nil => exact ⟨fun _ => rfl, fun hinside => absurd rfl (hinside rfl)⟩
    | cons p outer => exact ⟨fun _ => rfl, fun _ => rfl⟩
  | repeated min max lazyMark =>
    rw [Reading.take?, again?.eq_def] at htake
    split at htake
    · cases htake
    · split at htake
      · cases htake
      · cases htake
        cases w.outer <;> exact ⟨fun _ => rfl, fun _ => rfl⟩

/-- Elements leave the flags of the outermost group, if none of them sets flags there, and its
branches, if none of them ends one. -/
theorem Cut.outermost_eq (h : w.Cut ls w') :
    (hasOutside .flags w.outer.length ls = false →
      (outermost w'.flags w'.group w'.outer).1 = (outermost w.flags w.group w.outer).1) ∧
    (hasOutside .alternate w.outer.length ls = false →
      (outermost w'.flags w'.group w'.outer).2 = (outermost w.flags w.group w.outer).2) := by
  induction h with
  | nil => exact ⟨fun _ => rfl, fun _ => rfl⟩
  | cons hreads _ ih =>
    have hflags := hreads.hasOutside_eq (.inr rfl)
    have halternate := hreads.hasOutside_eq (.inl rfl)
    have htake := take?_outermost hreads.take
    rw [hasOutside_append hreads.counts.1, hasOutside_append hreads.counts.1,
      Bool.or_eq_false_iff, Bool.or_eq_false_iff]
    refine ⟨fun ⟨hfront, hbehind⟩ => (ih.1 hbehind).trans (htake.1 fun f he houter => ?_),
      fun ⟨hfront, hbehind⟩ => (ih.2 hbehind).trans (htake.2 fun he houter => ?_)⟩
    · cases (hflags.mpr ⟨he ▸ rfl, houter⟩).symm.trans hfront
    · cases (halternate.mpr ⟨he ▸ rfl, houter⟩).symm.trans hfront

/-! ## As elements of the pattern syntax -/

/-- The elements stay apart where groups do not record, whatever stands behind them. -/
theorem Cut.cuts_anonymous (h : w.Cut ls w') (hmore : Cuts more behind) :
    Cuts ((ls.map (·.anonymous)).flatMap (·.text) ++ more)
      (ls.map (·.anonymous) ++ behind) := by
  induction h with
  | nil => exact hmore
  | cons hreads _ ih =>
    rw [List.map_append, List.flatMap_append, List.append_assoc, List.append_assoc]
    obtain ⟨-, rfl⟩ | ⟨hne, hls⟩ := hreads.shows.anonymous_cases hreads.hasText
    · exact .lexeme ((@LexemeKind.HasText.uncapturedOpen [] nofun).next?_append _)
        (List.cons_ne_nil _ _) LexemeKind.noConfusion ih
    · rw [hls, hreads.shows.texts]
      exact hreads.shows.cuts _ _ (fun he => absurd he hne) ih

end Reading
end Regex

namespace Cuts
variable {source : String} {ls : List Lexeme}

/-- A source that holds no extension becomes an operand whose groups do not record. -/
theorem Ordinary.assembleWith_source (h : Ordinary source.toList ls)
    (resolve : String → Except PatternError String) :
    assembleWith resolve false (.source source) =
      .ok (.ofList ((ls.map (·.anonymous)).flatMap (·.text))) := by
  obtain ⟨ls', hlex, rfl, hordinary, hjoin⟩ := h.exists_lex
  rw [assembleWith]
  refine bind_eq_ok.mpr ⟨ls', hlex, bind_eq_ok.mpr ⟨source, ?_, ?_⟩⟩
  · rw [splice_eq hordinary, hjoin]
  · rw [List.flatMap_map, pieces_anonymous_text]
    refine bind_eq_ok.mpr ⟨ls', hlex, congrArg (Except.ok ∘ String.ofList) ?_⟩
    refine List.flatMap_congr fun l _ => ?_
    rw [Lexeme.anonymous]
    split <;> rfl

end Cuts
end Tinct
