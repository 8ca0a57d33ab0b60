import Tinct.Proofs.Pattern.Anonymous

/-!
# What stands in an assembled source

A source that is put into another one stands there for what it is by itself, but that its groups
without a name do not record. What stands somewhere so that this holds can be put together:

* `Regex.Reading.Passes`: what the reader of the whole has gained behind such a source;
* `Regex.Flags.StandFor`: elements stand for an expression, wherever they are put;
* `Regex.Reading.Cut.standFor`: those of a plain source do;
* `Regex.Flags.StandInRow.concat`, `Regex.Flags.StandAsBranch.choice`,
  `Regex.Flags.StandFor.inGroup`: so do sequences, choices and groups of such elements.
-/

namespace Tinct
namespace Regex

open Item (InRow Branches)

namespace Reading

/-- One element is read, behind the blanks in front of it. -/
def Advances (r r' : Reading) : Prop :=
  r.flags.skip r.rest ≠ [] ∧ { r with rest := r.flags.skip r.rest }.step? = some r'

/-- The reader stands in front of a text, under the flags `f`, and gets to the end of the source. -/
structure At (r : Reading) (f : Flags) (text more : List Char) : Prop where
  flags : r.flags = f
  rest : r.rest = text ++ more
  ends : r.Ends

/-- From `r` to `r'`, the reader has added branches to the group at hand, and behind them the
elements `is`. -/
structure Passes (r r' : Reading) (branches is : List Item) : Prop where
  advances : Relation.ReflTransGen Advances r r'
  outer : r'.outer = r.outer
  group : r'.group = { r.group with
    alternatives := branches.reverse ++ r.group.alternatives
    items := is.reverse ++ r.group.items }

variable {r r₁ r' x : Reading} {as is js : List Item} {f : Flags} {text more : List Char}

theorem Step.advances (h : r.Step r') : r.Advances r' := by
  obtain ⟨hne, hblanks, hstep⟩ := h
  rw [Advances, Flags.skip_eq hblanks]
  exact ⟨hne, hstep⟩

theorem Advances.end?_succ (h : r.Advances r') (fuel : Nat) : r.end? (fuel + 1) = r'.end? fuel := by
  obtain ⟨hne, hstep⟩ := h
  conv_lhs => unfold end?
  dsimp only
  rw [if_neg fun hempty => hne (List.isEmpty_iff.mp hempty), hstep]
  rfl

theorem Advances.exists_end? (h : r.Advances r') {fuel : Nat} (hend : r.end? fuel = some x) :
    ∃ n, r'.end? n = some x := by
  cases fuel with
  | zero =>
    unfold end? at hend
    dsimp only at hend
    rw [if_neg fun hempty => h.1 (List.isEmpty_iff.mp hempty)] at hend
    cases hend
  | succ n => exact ⟨n, (h.end?_succ n).symm.trans hend⟩

/-- What the reader gets to is what it gets to from any place on its way. -/
theorem exists_end?_of_advances (h : Relation.ReflTransGen Advances r r') {fuel : Nat}
    (hend : r.end? fuel = some x) : ∃ n, r'.end? n = some x := by
  induction h with
  | refl => exact ⟨fuel, hend⟩
  | tail _ hadvances ih =>
    obtain ⟨n, hend⟩ := ih
    exact hadvances.exists_end? hend

theorem Ends.of_advances (h : r.Ends) (hadvances : Relation.ReflTransGen Advances r r') :
    r'.Ends := by
  obtain ⟨fuel, x, hend⟩ := h
  obtain ⟨n, hend⟩ := exists_end?_of_advances hadvances hend
  exact ⟨n, x, hend⟩

/-- A group closes that does not record, whatever flags are in force in it. -/
theorem advances_close {p : OpenGroup} {outer : List OpenGroup} (hrest : r.rest = ')' :: more)
    (houter : r.outer = p :: outer) (hnumber : r.group.number? = none) :
    r.Advances { r with
      rest := more
      flags := r.group.outside
      group := p.add ⟨r.group.contents.expr, r.group.contents.height + 1, true⟩
      outer } := by
  have hskip : r.flags.skip r.rest = ')' :: more := by
    rw [hrest, Flags.skip]
    split
    · have hvisible : Unicode.blank.contains ')' = false := by decide
      simp [skipBlanks, hvisible]
    · rfl
  rw [Advances, hskip, step?_eq (List.cons_ne_nil _ _)]
  refine ⟨List.cons_ne_nil _ _, ?_⟩
  change Reading.closeGroup? { r with rest := ')' :: more } more = _
  unfold Reading.closeGroup?
  dsimp only
  rw [houter, hnumber]

theorem At.of_append {as bs : List Char} (h : r.At f (as ++ bs) more) : r.At f as (bs ++ more) :=
  ⟨h.flags, by rw [h.rest, List.append_assoc], h.ends⟩

theorem Passes.refl (r : Reading) : r.Passes r [] [] := ⟨.refl, rfl, rfl⟩

theorem Passes.trans (h : r.Passes r₁ as is) (h' : r₁.Passes r' [] js) :
    r.Passes r' as (is ++ js) where
  advances := h.advances.trans h'.advances
  outer := h'.outer.trans h.outer
  group := by
    rw [h'.group, h.group]
    simp

end Reading

/-- The elements as a group that does not record. -/
def inGroup (ls : List Lexeme) : List Lexeme :=
  ⟨.uncapturedOpen, opener⟩ :: (ls ++ [⟨.close, [')']⟩])

/-- Elements that may be put anywhere, and do not repeat what stands in front of them. -/
structure Operand (ls : List Lexeme) : Prop where
  cuts : ∀ {more : List Char} {behind : List Lexeme}, Cuts more behind →
    Cuts (ls.flatMap (·.text) ++ more) (ls ++ behind)
  ordinary : ∀ l ∈ ls, l.kind.isOrdinary = true
  anonymous : ∀ l ∈ ls, l.kind ≠ .open
  closes : closes? 0 ls = some 0
  front : repeats (ls.flatMap (·.text)) = false

/-- Under the flags `f`, elements stand for the expression `e` wherever they are put, if no
repetition follows that would repeat the last of them, and nothing stands in front of the first of
several branches. -/
structure Flags.StandFor (f : Flags) (ls : List Lexeme) (e : Expr) : Prop extends Operand ls where
  reads : ∀ {r : Reading} {more : List Char}, r.At f (ls.flatMap (·.text)) more →
    repeats more = false → (hasOutside .alternate 0 ls = true → r.group.items = []) →
    ∃ r' branches is, r.Passes r' branches is ∧ r'.rest = more ∧
      (hasOutside .flags 0 ls = false → r'.flags = f) ∧
      (hasOutside .alternate 0 ls = false → branches = []) ∧
      (∀ i ∈ is, i.expr.Proper) ∧ Branches (branches ++ [.sequence is]) e

/-- They do so beside others in a row. -/
structure Flags.StandInRow (f : Flags) (ls : List Lexeme) (e : Expr) : Prop
    extends f.StandFor ls e where
  choices : hasOutside .alternate 0 ls = false
  flags : hasOutside .flags 0 ls = false

/-- They do so beside other branches. -/
structure Flags.StandAsBranch (f : Flags) (ls : List Lexeme) (e : Expr) : Prop
    extends f.StandFor ls e where
  flags : hasOutside .flags 0 ls = false

/-! ## Plain sources -/

theorem Flags.element?_of_repeats {f : Flags} {cs rest : List Char} {e : Element}
    (hrepeats : repeats cs = true) (h : f.element? cs = some (e, rest)) :
    ∃ min max lazyMark, e = .repeated min max lazyMark := by
  have hrepetition {min : Nat} {max : Option Nat} {behind : List Char}
      (h : some (repetition min max behind) = some (e, rest)) :
      ∃ min max lazyMark, e = .repeated min max lazyMark := by
    unfold repetition at h
    split at h <;> cases h <;> exact ⟨_, _, _, rfl⟩
  obtain ⟨c, hhead, hc⟩ := (Option.any_eq_true ..).mp hrepeats
  obtain ⟨cs, rfl⟩ := List.head?_eq_some_iff.mp hhead
  have hc : c = '?' ∨ c = '*' ∨ c = '+' ∨ c = '\x7b' := by simpa using hc
  obtain rfl | rfl | rfl | rfl := hc
  · exact hrepetition h
  · exact hrepetition h
  · exact hrepetition h
  · obtain ⟨⟨min, max, behind⟩, -, h⟩ := Option.bind_eq_some_iff.mp h
    exact hrepetition h

namespace Reading
variable {f : Flags} {cs : List Char} {ls : List Lexeme} {w' : Reading} {e : Expr}

/-- No source begins with a repetition. -/
theorem Cut.repeats_eq (h : (start f cs).Cut ls w') (hrest : w'.rest = []) :
    repeats cs = false := by
  cases h with
  | nil =>
    obtain rfl : cs = [] := hrest
    rfl
  | cons hreads _ =>
    refine Bool.eq_false_iff.mpr fun hrepeats => ?_
    obtain ⟨min, max, lazyMark, rfl⟩ := Flags.element?_of_repeats hrepeats hreads.element
    cases hreads.take

/-- A plain source may be put anywhere. -/
theorem Cut.operand (h : (start f cs).Cut ls w') (hrest : w'.rest = []) (houter : w'.outer = []) :
    Operand (ls.map (·.anonymous)) where
  cuts := h.cuts_anonymous
  ordinary := List.forall_mem_map.mpr fun l hl => Lexeme.isOrdinary_anonymous (h.isOrdinary l hl)
  anonymous := List.forall_mem_map.mpr fun l _ => l.kind_anonymous_ne
  closes := by
    rw [closes?_anonymous]
    exact h.closes?.trans (by rw [houter]; rfl)
  front := by
    have hfront := h.repeats_eq hrest
    have htext : cs = ls.flatMap (·.text) ++ w'.rest := h.flatMap_text
    rw [htext, hrest, List.append_nil] at hfront
    cases ls with
    | nil => rfl
    | cons l ls =>
      have hhead := Lexeme.head?_anonymous (h.text_ne_nil hrest l (.head _))
        (h.text_of_open l (.head _)) ((ls.map (·.anonymous)).flatMap (·.text))
        (ls.flatMap (·.text))
      rw [repeats] at hfront ⊢
      rw [List.map_cons, List.flatMap_cons, hhead]
      exact hfront

/-- The elements of a plain source stand for what the source is by itself. -/
theorem Cut.standFor (h : (start f cs).Cut ls w') (hrest : w'.rest = [])
    (hwhole : w'.whole? = some e) : f.StandFor (ls.map (·.anonymous)) e := by
  obtain ⟨houter, rfl⟩ := of_whole? hwhole
  refine ⟨h.operand hrest houter, ?_⟩
  intro r more hat hmore hbranch
  rw [hasOutside_anonymous rfl] at hbranch
  have hbeside : Beside r.group r.outer r (start f cs) := ⟨hat.flags, .base (.refl _ _ _)⟩
  obtain ⟨r', hsteps, hr', hbeside⟩ := h.beside hrest hbeside hat.rest hmore hbranch hat.ends
  have hgroups := hbeside.groups
  have hoverall := h.outermost_eq
  rw [houter] at hgroups hoverall
  obtain ⟨hgains, houter'⟩ := hgroups.gains
  obtain ⟨branches, is, hgroup, hnil, hproper, hbranches⟩ := hgains.exists_branches
  have hpasses : r.Passes r' branches is :=
    ⟨Relation.ReflTransGen.mono (fun _ _ => Step.advances) _ _ hsteps, houter', hgroup⟩
  refine ⟨r', branches, is, hpasses, hr', ?_, ?_, hproper, hbranches⟩
  · rw [hasOutside_anonymous rfl]
    exact fun hinside => hbeside.flags.trans (hoverall.1 hinside)
  · rw [hasOutside_anonymous rfl]
    exact fun hinside => hnil (hoverall.2 hinside)

end Reading

/-! ## Elements that may be put anywhere -/

theorem repeats_append {as bs : List Char} (ha : repeats as = false) (hb : repeats bs = false) :
    repeats (as ++ bs) = false := by
  cases as with
  | nil => exact hb
  | cons a as => exact ha

namespace Operand
variable {ls ks : List Lexeme}

theorem nil : Operand [] := ⟨id, nofun, nofun, rfl, rfl⟩

theorem append (h : Operand ls) (h' : Operand ks) : Operand (ls ++ ks) where
  cuts hmore := by
    rw [List.flatMap_append, List.append_assoc, List.append_assoc]
    exact h.cuts (h'.cuts hmore)
  ordinary := List.forall_mem_append.mpr ⟨h.ordinary, h'.ordinary⟩
  anonymous := List.forall_mem_append.mpr ⟨h.anonymous, h'.anonymous⟩
  closes := by rw [closes?_append, h.closes, Option.bind_some, h'.closes]
  front := by
    rw [List.flatMap_append]
    exact repeats_append h.front h'.front

theorem bar : Operand [⟨.alternate, ['|']⟩] where
  cuts hmore := .lexeme rfl (List.cons_ne_nil _ _) LexemeKind.noConfusion hmore
  ordinary := List.forall_mem_singleton.mpr rfl
  anonymous := List.forall_mem_singleton.mpr LexemeKind.noConfusion
  closes := rfl
  front := rfl

theorem inGroup (h : Operand ls) : Operand (inGroup ls) where
  cuts hmore := by
    rw [Regex.inGroup, List.flatMap_cons, List.flatMap_append, List.append_assoc, List.append_assoc,
      List.cons_append, List.append_assoc]
    refine .lexeme ((@LexemeKind.HasText.uncapturedOpen [] nofun).next?_append _)
      (List.cons_ne_nil _ _) LexemeKind.noConfusion (h.cuts ?_)
    exact .lexeme rfl (List.cons_ne_nil _ _) LexemeKind.noConfusion hmore
  ordinary := List.forall_mem_cons.mpr
    ⟨rfl, List.forall_mem_append.mpr ⟨h.ordinary, List.forall_mem_singleton.mpr rfl⟩⟩
  anonymous := List.forall_mem_cons.mpr ⟨LexemeKind.noConfusion,
    List.forall_mem_append.mpr ⟨h.anonymous, List.forall_mem_singleton.mpr LexemeKind.noConfusion⟩⟩
  closes := by
    have hinside : closes? 1 ls = some 1 := closes?_add h.closes 1
    change closes? 1 (ls ++ [⟨.close, [')']⟩]) = some 0
    rw [closes?_append, hinside]
    rfl
  front := rfl

end Operand

/-! ## Putting elements together -/

namespace Flags
variable {f : Flags} {ls : List Lexeme} {lss : List (List Lexeme)} {e : Expr} {es : List Expr}
  {r : Reading} {more : List Char}

/-- Elements that do not reach beyond their place are read as elements in a row. -/
theorem StandInRow.passes (h : f.StandInRow ls e) (hat : r.At f (ls.flatMap (·.text)) more)
    (hmore : repeats more = false) :
    ∃ r' is, r.Passes r' [] is ∧ r'.flags = f ∧ r'.rest = more ∧ InRow is e := by
  have hbranch : hasOutside .alternate 0 ls = true → r.group.items = [] := by
    rw [h.choices]
    exact nofun
  obtain ⟨r', branches, is, hpasses, hrest, hflags, hnil, hproper, hbranches⟩ :=
    h.reads hat hmore hbranch
  obtain rfl := hnil h.choices
  exact ⟨r', is, hpasses, hflags h.flags, hrest, hproper, hbranches.anonymized⟩

theorem StandInRow.operand_flatten (h : List.Forall₂ f.StandInRow lss es) :
    Operand lss.flatten ∧ hasOutside .alternate 0 lss.flatten = false ∧
      hasOutside .flags 0 lss.flatten = false := by
  induction h with
  | nil => exact ⟨.nil, rfl, rfl⟩
  | cons hls _ ih =>
    rw [List.flatten_cons, hasOutside_append hls.closes, hasOutside_append hls.closes,
      hls.choices, hls.flags]
    exact ⟨hls.toOperand.append ih.1, ih.2⟩

theorem StandInRow.passes_flatten (h : List.Forall₂ f.StandInRow lss es)
    (hat : r.At f (lss.flatten.flatMap (·.text)) more) (hmore : repeats more = false) :
    ∃ r' iss, r.Passes r' [] iss.flatten ∧ r'.flags = f ∧ r'.rest = more ∧
      List.Forall₂ InRow iss es := by
  induction h generalizing r with
  | nil => exact ⟨r, [], .refl r, hat.flags, hat.rest, .nil⟩
  | cons hls hlss ih =>
    rw [List.flatten_cons, List.flatMap_append] at hat
    have hbehind := repeats_append (operand_flatten hlss).1.front hmore
    obtain ⟨r₁, is, hpasses, hflags, hrest, his⟩ := hls.passes hat.of_append hbehind
    obtain ⟨r', iss, hpasses', hflags, hrest, hiss⟩ :=
      ih ⟨hflags, hrest, hat.ends.of_advances hpasses.advances⟩
    exact ⟨r', is :: iss, hpasses.trans hpasses', hflags, hrest, .cons his hiss⟩

/-- Elements in a row stand for the sequence of what each of them stands for. -/
theorem StandInRow.concat (h : List.Forall₂ f.StandInRow lss es) :
    f.StandInRow lss.flatten (.concat es) := by
  obtain ⟨hoperand, hchoices, hflags⟩ := operand_flatten h
  refine ⟨⟨hoperand, fun hat hmore _ => ?_⟩, hchoices, hflags⟩
  obtain ⟨r', iss, hpasses, hflags, hrest, hiss⟩ := passes_flatten h hat hmore
  have hrow := InRow.flatten hiss
  exact ⟨r', [], iss.flatten, hpasses, hrest, fun _ => hflags, fun _ => rfl, hrow.proper,
    hrow.branches⟩

/-- A group stands for what its elements stand for, and may be repeated. -/
theorem StandFor.passes_inGroup (h : f.StandFor ls e) (hf : f.verbose = false)
    (hat : r.At f ((inGroup ls).flatMap (·.text)) more) :
    ∃ r' i, r.Passes r' [] [i] ∧ r'.flags = f ∧ r'.rest = more ∧ i.repeatable = true ∧
      i.expr.Anonymized e := by
  have hrest : r.rest = '(' :: '?' :: ':' :: (ls.flatMap (·.text) ++ ')' :: more) := by
    rw [hat.rest]
    simp [inGroup, opener]
  have hopen := Reading.step_opener hrest (hat.flags ▸ hf)
  have hinside : Reading.At
      { r with
        rest := ls.flatMap (·.text) ++ ')' :: more
        group := ⟨r.flags, none, [], []⟩
        outer := r.group :: r.outer } f (ls.flatMap (·.text)) (')' :: more) :=
    ⟨hat.flags, rfl, hat.ends.of_step hopen⟩
  obtain ⟨r₁, branches, is, hpasses, hrest₁, -, -, -, hbranches⟩ :=
    h.reads hinside rfl fun _ => rfl
  have hclose := Reading.advances_close hrest₁ hpasses.outer (by rw [hpasses.group])
  refine ⟨_, _, ⟨.head hopen.advances (hpasses.advances.tail hclose), rfl, rfl⟩, ?_, rfl, rfl, ?_⟩
  · rw [hpasses.group]
    exact hat.flags
  · rw [hpasses.group]
    simpa [OpenGroup.contents] using hbranches.anonymized

theorem StandFor.inGroup (h : f.StandFor ls e) (hf : f.verbose = false) :
    f.StandInRow (inGroup ls) e := by
  have houtside {kind : LexemeKind} (hkind : kind ≠ .uncapturedOpen ∧ kind ≠ .close) :
      hasOutside kind 0 (Regex.inGroup ls) = false := by
    change hasOutside kind 1 (ls ++ [⟨.close, [')']⟩]) = false
    have hinside : closes? 1 ls = some 1 := closes?_add h.closes 1
    rw [hasOutside_append hinside, hasOutside_inside h.closes]
    rfl
  refine ⟨⟨h.toOperand.inGroup, fun hat _ _ => ?_⟩, houtside (by decide), houtside (by decide)⟩
  obtain ⟨r', i, hpasses, hflags, hrest, -, hi⟩ := h.passes_inGroup hf hat
  have hrow := InRow.singleton hi
  exact ⟨r', [], [i], hpasses, hrest, fun _ => hflags, fun _ => rfl, hrow.proper, hrow.branches⟩

/-! ### Branches -/

theorem intercalate_bar (ls ks : List Lexeme) (lss : List (List Lexeme)) :
    [⟨.alternate, ['|']⟩].intercalate (ls :: ks :: lss) =
      ls ++ ⟨.alternate, ['|']⟩ :: [⟨.alternate, ['|']⟩].intercalate (ks :: lss) := by
  rw [List.intercalate_cons_cons, List.append_assoc]
  rfl

theorem StandAsBranch.operand_intercalate (h : List.Forall₂ f.StandAsBranch lss es) :
    Operand ([⟨.alternate, ['|']⟩].intercalate lss) ∧
      hasOutside .flags 0 ([⟨.alternate, ['|']⟩].intercalate lss) = false := by
  induction h with
  | nil => exact ⟨.nil, rfl⟩
  | @cons ls e lss es hls hlss ih =>
    cases lss with
    | nil =>
      rw [List.intercalate_singleton]
      exact ⟨hls.toOperand, hls.flags⟩
    | cons ks lss =>
      rw [intercalate_bar, hasOutside_append hls.closes, hls.flags]
      exact ⟨hls.toOperand.append (Operand.bar.append ih.1), ih.2⟩

theorem StandAsBranch.passes_intercalate (h : List.Forall₂ f.StandAsBranch lss es) (hne : es ≠ [])
    (hf : f.verbose = false)
    (hat : r.At f (([⟨.alternate, ['|']⟩].intercalate lss).flatMap (·.text)) more)
    (hmore : repeats more = false)
    (hbranch : hasOutside .alternate 0 ([⟨.alternate, ['|']⟩].intercalate lss) = true →
      r.group.items = []) :
    ∃ r' branches is bss, r.Passes r' branches is ∧ r'.flags = f ∧ r'.rest = more ∧
      (hasOutside .alternate 0 ([⟨.alternate, ['|']⟩].intercalate lss) = false → branches = []) ∧
      (∀ i ∈ is, i.expr.Proper) ∧ branches ++ [.sequence is] = bss.flatten ∧
      List.Forall₂ Branches bss es := by
  induction h generalizing r with
  | nil => exact absurd rfl hne
  | @cons ls e lss es hls hlss ih =>
    cases hlss with
    | nil =>
      rw [List.intercalate_singleton] at hat hbranch ⊢
      obtain ⟨r', branches, is, hpasses, hrest, hflags, hnil, hproper, hbranches⟩ :=
        hls.reads hat hmore hbranch
      exact ⟨r', branches, is, [branches ++ [.sequence is]], hpasses, hflags hls.flags, hrest, hnil,
        hproper, by simp, .cons hbranches .nil⟩
    | @cons ks e' lss es hks hlss =>
      have hbar : hasOutside .alternate 0
          ([⟨.alternate, ['|']⟩].intercalate (ls :: ks :: lss)) = true := by
        rw [intercalate_bar, hasOutside_append hls.closes, hasOutside]
        simp [LexemeKind.opensGroup]
      -- nothing stands in front of the first operand, and nothing behind the bar
      have hnone := hbranch hbar
      rw [intercalate_bar, List.flatMap_append, List.flatMap_cons] at hat
      obtain ⟨r₁, branches, is, hpasses, hrest, hflags, -, -, hbranches⟩ :=
        hls.reads hat.of_append rfl fun _ => hnone
      have hstep := Reading.step_bar hrest (hflags hls.flags ▸ hf)
      have hbehind : Reading.At
          { r₁ with
            rest := ([⟨.alternate, ['|']⟩].intercalate (ks :: lss)).flatMap (·.text) ++ more
            group := { r₁.group with
              alternatives := .sequence r₁.group.items.reverse :: r₁.group.alternatives
              items := [] } } f
          (([⟨.alternate, ['|']⟩].intercalate (ks :: lss)).flatMap (·.text)) more :=
        ⟨hflags hls.flags, rfl, (hat.ends.of_advances hpasses.advances).of_step hstep⟩
      obtain ⟨r', branches', is', bss, hpasses', hflags', hrest', -, hproper, hbss, hes⟩ :=
        ih (List.cons_ne_nil _ _) hbehind fun _ => rfl
      refine ⟨r', branches ++ .sequence is :: branches', is',
        (branches ++ [.sequence is]) :: bss, ⟨?_, ?_, ?_⟩, hflags', hrest', ?_, hproper, ?_,
        .cons hbranches hes⟩
      · exact hpasses.advances.trans (.head hstep.advances hpasses'.advances)
      · exact hpasses'.outer.trans hpasses.outer
      · rw [hpasses'.group]
        dsimp only
        rw [hpasses.group, hnone]
        simp
      · rw [hbar]
        intro hfalse
        cases hfalse
      · simp [← hbss]

/-- Branches stand for the choice between what each of them stands for. -/
theorem StandAsBranch.choice (h : List.Forall₂ f.StandAsBranch lss es) (hne : es ≠ [])
    (hf : f.verbose = false) :
    f.StandAsBranch ([⟨.alternate, ['|']⟩].intercalate lss) (.choice es) := by
  obtain ⟨hoperand, hflags⟩ := operand_intercalate h
  refine ⟨⟨hoperand, fun hat hmore hbranch => ?_⟩, hflags⟩
  obtain ⟨r', branches, is, bss, hpasses, hflags, hrest, hnil, hproper, hbss, hes⟩ :=
    passes_intercalate h hne hf hat hmore hbranch
  have hchoice := Branches.flatten hes hne
  rw [← hbss] at hchoice
  exact ⟨r', branches, is, hpasses, hrest, fun _ => hflags, hnil, hproper, hchoice⟩

end Flags
end Regex
end Tinct
