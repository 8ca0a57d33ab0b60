import Mathlib.Logic.Relation
import Tinct.Proofs.Pattern.Lookahead
import Tinct.Proofs.Regex.Extent.Element
import Tinct.Regex.Basic

/-!
# Texts spliced into sources

A text that is escaped and spliced into a source is read character by character. Beside the reader
of the spliced source stands one that takes each spliced text as one element:

* `Flags.unit`: a text as one element;
* `Reading.Alike`: two readers hold the same, but that elements in a row may be taken together;
* `Reading.Follows.step`: alike readers stay so over an element, provided that one which is
  repeated is the same for both (`Item.Aligned`);
* `Reading.Follows.unit`: and over a spliced text.
-/

namespace Tinct.Regex

namespace Flags

/-- One character, in either case if case is ignored. -/
def charExpr (f : Flags) (c : Char) : Expr :=
  if !f.ignoreCase then .literal [c]
  else .ofSet ((if f.unicode then Unicode.foldCase else foldAscii) (.singleton c))

/-- A text as one element. -/
def unit (f : Flags) (cs : List Char) : Item := ⟨.concat (cs.map f.charExpr), 0, true⟩

theorem charExpr?_eq (f : Flags) (c : Char) : f.charExpr? c false = some (f.charExpr c) := by
  unfold charExpr? charExpr
  rw [Bool.and_false, Bool.false_and, if_neg Bool.false_ne_true]
  split <;> rfl

/-- A parenthesis with the mark of a group that does not record. -/
theorem element?_opener {f : Flags} (hf : f.verbose = false) (cs : List Char) :
    f.element? ('(' :: '?' :: ':' :: cs) = some (.flagged f, cs) := by
  have hopening : f.opening? ('?' :: ':' :: cs) = some (.flagged f, cs) := by
    rw [opening?_question hf]
    rfl
  exact hopening

theorem charExpr_simple (f : Flags) (c : Char) : (f.charExpr c).Simple :=
  (Literal.char (f.charExpr?_eq c)).simple

end Flags

/-! ## Readers that hold the same -/

/-- Elements that are the same up to the last one, and the last one too. -/
def Item.Aligned : List Item → List Item → Prop
  | [], [] => True
  | i :: is, j :: js =>
    i.expr = j.expr ∧ i.repeatable = j.repeatable ∧
      Expr.concat (is.reverse.map (·.expr)) = Expr.concat (js.reverse.map (·.expr))
  | _, _ => False

/-- Groups that hold the same, but that elements in a row may be taken together. -/
structure OpenGroup.Alike (g h : OpenGroup) : Prop where
  outside : g.outside = h.outside
  number? : g.number? = h.number?
  alternatives : g.alternatives.map (·.expr) = h.alternatives.map (·.expr)
  items : Expr.concat (g.items.reverse.map (·.expr)) = Expr.concat (h.items.reverse.map (·.expr))

/-- Readers that hold the same, wherever they are. -/
structure Reading.Alike (r w : Reading) : Prop where
  flags : r.flags = w.flags
  group : r.group.Alike w.group
  outer : List.Forall₂ OpenGroup.Alike r.outer w.outer
  opened : r.opened = w.opened
  names : r.names = w.names

theorem Item.concat_cons_congr {is js : List Item} {i j : Item} (his : ∀ i ∈ is, i.expr.Simple)
    (hjs : ∀ j ∈ js, j.expr.Simple)
    (h : Expr.concat (is.reverse.map (·.expr)) = Expr.concat (js.reverse.map (·.expr)))
    (hij : i.expr = j.expr) :
    Expr.concat ((i :: is).reverse.map (·.expr)) =
      Expr.concat ((j :: js).reverse.map (·.expr)) := by
  have hsimple {is : List Item} (his : ∀ i ∈ is, i.expr.Simple) :
      ∀ e ∈ is.reverse.map (·.expr), e.Simple :=
    List.forall_mem_map.mpr fun i hi => his i (List.mem_reverse.mp hi)
  simp only [List.reverse_cons, List.map_append, List.map_singleton, hij]
  exact Expr.concat_append_congr (hsimple his) (hsimple hjs) h

theorem Item.choice_congr {is js : List Item} (h : is.map (·.expr) = js.map (·.expr)) :
    (choice is).expr = (choice js).expr := by
  cases is with
  | nil =>
    cases js with
    | nil => rfl
    | cons j js => cases h
  | cons i is =>
    cases js with
    | nil => cases h
    | cons j js =>
      obtain ⟨hij, htail⟩ := List.cons.inj h
      cases is with
      | nil =>
        cases js with
        | nil => exact hij
        | cons j' js => cases htail
      | cons i' is =>
        cases js with
        | nil => cases htail
        | cons j' js => exact congrArg Expr.choice h

namespace OpenGroup.Alike
variable {g h : OpenGroup}

theorem add (halike : g.Alike h) (hg : g.Simple) (hh : h.Simple) {i j : Item}
    (hij : i.expr = j.expr) : (g.add i).Alike (h.add j) :=
  ⟨halike.outside, halike.number?, halike.alternatives,
    Item.concat_cons_congr hg.items hh.items halike.items hij⟩

theorem sequence (halike : g.Alike h) (hg : g.Simple) (hh : h.Simple) :
    (Item.sequence g.items.reverse).expr = (Item.sequence h.items.reverse).expr := by
  rw [Item.sequence_expr fun i hi => hg.items i (List.mem_reverse.mp hi),
    Item.sequence_expr fun i hi => hh.items i (List.mem_reverse.mp hi), halike.items]

theorem contents (halike : g.Alike h) (hg : g.Simple) (hh : h.Simple) :
    g.contents.expr = h.contents.expr := by
  refine Item.choice_congr ?_
  rw [List.map_reverse, List.map_reverse, List.map_cons, List.map_cons,
    halike.sequence hg hh, halike.alternatives]

end OpenGroup.Alike

theorem Reading.take?_rest {r r' : Reading} {e : Element} {rest : List Char}
    (h : r.take? rest e = some r') : r'.rest = rest := by
  cases e with
  | item i => cases h; rfl
  | numbered name =>
    rw [take?] at h
    split at h
    · cases h
    · cases h; rfl
  | flags f => cases h; rfl
  | flagged f => cases h; rfl
  | close =>
    rw [take?, closeGroup?.eq_def] at h
    split at h
    · cases h
    · cases h; rfl
  | alternate => cases h; rfl
  | repeated min max lazyMark =>
    rw [take?, again?.eq_def] at h
    split at h
    · cases h
    · split at h
      · cases h
      · cases h; rfl

/-! ### An element is added to alike readers -/

namespace Reading.Alike
variable {r w w' : Reading} {e : Element} {rest rest' : List Char}

theorem closeGroup? (halike : r.Alike w) (hr : r.Simple) (hw : w.Simple)
    (h : w.closeGroup? rest = some w') :
    ∃ r', r.closeGroup? rest' = some r' ∧ r'.Alike w' ∧
      Item.Aligned r'.group.items w'.group.items := by
  obtain ⟨-, hgroup, houter, hopened, hnames⟩ := halike
  obtain ⟨hrg, hro⟩ := List.forall_mem_cons.mp hr
  obtain ⟨hwg, hwo⟩ := List.forall_mem_cons.mp hw
  unfold Reading.closeGroup? at h ⊢
  cases hwouter : w.outer with
  | nil =>
    rw [hwouter] at h
    cases h
  | cons q outer =>
    rw [hwouter] at h houter
    obtain ⟨p, outer', hpq, houter, hrouter⟩ := List.forall₂_cons_right_iff.mp houter
    cases h
    rw [hrouter]
    have hp : p.Simple := hro p (hrouter ▸ List.mem_cons_self ..)
    have hq : q.Simple := hwo q (hwouter ▸ List.mem_cons_self ..)
    dsimp only
    rw [hgroup.number?, hgroup.contents hrg hwg]
    exact ⟨_, rfl, ⟨hgroup.outside, hpq.add hp hq rfl, houter, hopened, hnames⟩, rfl, rfl,
      hpq.items⟩

theorem again? (halike : r.Alike w) (hr : r.Simple) (hw : w.Simple)
    (hlast : Item.Aligned r.group.items w.group.items) {min : Nat} {max : Option Nat}
    {lazyMark : Bool} (h : w.again? min max lazyMark rest = some w') :
    ∃ r', r.again? min max lazyMark rest' = some r' ∧ r'.Alike w' ∧
      Item.Aligned r'.group.items w'.group.items := by
  obtain ⟨hflags, hgroup, houter, hopened, hnames⟩ := halike
  obtain ⟨hrg, -⟩ := List.forall_mem_cons.mp hr
  obtain ⟨hwg, -⟩ := List.forall_mem_cons.mp hw
  unfold Reading.again? at h ⊢
  cases hwitems : w.group.items with
  | nil =>
    rw [hwitems] at h
    cases h
  | cons j js =>
    cases hritems : r.group.items with
    | nil =>
      rw [hwitems, hritems] at hlast
      exact hlast.elim
    | cons i is =>
      rw [hwitems, hritems] at hlast
      obtain ⟨hexpr, hrepeatable, htail⟩ := hlast
      rw [hwitems] at h
      dsimp only at h ⊢
      rw [hrepeatable]
      split at h
      · cases h
      · rename_i hrep
        cases h
        rw [if_neg hrep, hexpr, hflags]
        have his : ∀ i ∈ is, i.expr.Simple := fun i hi =>
          hrg.items i (hritems ▸ List.mem_cons_of_mem _ hi)
        have hjs : ∀ j ∈ js, j.expr.Simple := fun j hj =>
          hwg.items j (hwitems ▸ List.mem_cons_of_mem _ hj)
        exact ⟨_, rfl, ⟨rfl, ⟨hgroup.outside, hgroup.number?, hgroup.alternatives,
          Item.concat_cons_congr his hjs htail rfl⟩, houter, hopened, hnames⟩, rfl, rfl, htail⟩

/-- Alike readers take an element alike, and then have the same last element. -/
theorem take? (halike : r.Alike w) (hr : r.Simple) (hw : w.Simple)
    (hlast : ∀ min max lazyMark, e = .repeated min max lazyMark →
      Item.Aligned r.group.items w.group.items)
    (h : w.take? rest e = some w') :
    ∃ r', r.take? rest' e = some r' ∧ r'.Alike w' ∧
      Item.Aligned r'.group.items w'.group.items := by
  have ⟨hflags, hgroup, houter, hopened, hnames⟩ := halike
  obtain ⟨hrg, -⟩ := List.forall_mem_cons.mp hr
  obtain ⟨hwg, -⟩ := List.forall_mem_cons.mp hw
  cases e with
  | item i =>
    cases h
    have hadd := hgroup.add hrg hwg (i := i) rfl
    exact ⟨_, rfl, ⟨hflags, hadd, houter, hopened, hnames⟩, rfl, rfl, hgroup.items⟩
  | numbered name =>
    rw [Reading.take?] at h ⊢
    rw [hnames]
    split at h
    · cases h
    · rename_i hname
      cases h
      rw [if_neg hname]
      have hnumber : some (r.opened + 1, name) = some (w.opened + 1, name) := by rw [hopened]
      exact ⟨_, rfl, ⟨hflags, ⟨hflags, hnumber, rfl, rfl⟩, .cons hgroup houter,
        congrArg (· + 1) hopened, congrArg (name.toList ++ ·) hnames⟩, trivial⟩
  | flags f =>
    cases h
    have hadd := hgroup.add hrg hwg (i := ⟨.empty, 0, false⟩) rfl
    exact ⟨_, rfl, ⟨rfl, hadd, houter, hopened, hnames⟩, rfl, rfl, hgroup.items⟩
  | flagged f =>
    cases h
    exact ⟨_, rfl, ⟨rfl, ⟨hflags, rfl, rfl, rfl⟩, .cons hgroup houter, hopened, hnames⟩, trivial⟩
  | close => exact halike.closeGroup? hr hw h
  | alternate =>
    cases h
    refine ⟨_, rfl, ⟨hflags, ⟨hgroup.outside, hgroup.number?, ?_, rfl⟩, houter, hopened, hnames⟩,
      trivial⟩
    rw [List.map_cons, List.map_cons, hgroup.sequence hrg hwg, hgroup.alternatives]
  | repeated min max lazyMark => exact halike.again? hr hw (hlast min max lazyMark rfl) h

end Reading.Alike

/-! ## Runs -/

namespace Reading

/-- One element is read where white space counts. -/
def Step (r r' : Reading) : Prop :=
  r.rest ≠ [] ∧ r.flags.verbose = false ∧ r.step? = some r'

/-- Whether white space counts wherever an element is read up to the end of the source. -/
def blanksCount : Nat → Reading → Bool
  | fuel, r =>
    if r.rest.isEmpty then true
    else
      !r.flags.verbose &&
        match fuel with
        | 0 => true
        | fuel + 1 => r.step?.all (blanksCount fuel)

variable {r r' w w' : Reading} {cs more : List Char}

theorem end?_of_rest_eq_nil (h : r.rest = []) (fuel : Nat) : r.end? fuel = some r := by
  have hskip : r.flags.skip r.rest = r.rest := by
    rw [h, Flags.skip]
    split <;> rfl
  unfold end?
  rw [hskip]
  exact if_pos (List.isEmpty_iff.mpr h)

theorem end?_zero (h : r.rest ≠ []) (hblanks : r.flags.verbose = false) : r.end? 0 = none := by
  unfold end?
  rw [Flags.skip_eq hblanks]
  exact if_neg fun hempty => h (List.isEmpty_iff.mp hempty)

theorem end?_succ (h : r.rest ≠ []) (hblanks : r.flags.verbose = false) (fuel : Nat) :
    r.end? (fuel + 1) = r.step?.bind (end? fuel) := by
  conv_lhs => unfold end?
  rw [Flags.skip_eq hblanks]
  exact if_neg fun hempty => h (List.isEmpty_iff.mp hempty)

/-- Where white space counts, reading on up to the end of a source is a run. -/
theorem steps_of_end? {fuel : Nat} (h : r.end? fuel = some r')
    (hblanks : r.blanksCount fuel = true) :
    Relation.ReflTransGen Step r r' ∧ r'.rest = [] := by
  induction fuel generalizing r with
  | zero =>
    by_cases hrest : r.rest = []
    · cases (end?_of_rest_eq_nil hrest 0).symm.trans h
      exact ⟨.refl, hrest⟩
    · rw [blanksCount, if_neg fun hempty => hrest (List.isEmpty_iff.mp hempty)] at hblanks
      have hverbose : r.flags.verbose = false := by simpa using hblanks
      cases (end?_zero hrest hverbose).symm.trans h
  | succ fuel ih =>
    by_cases hrest : r.rest = []
    · cases (end?_of_rest_eq_nil hrest _).symm.trans h
      exact ⟨.refl, hrest⟩
    · rw [blanksCount, if_neg fun hempty => hrest (List.isEmpty_iff.mp hempty)] at hblanks
      obtain ⟨hverbose, hblanks⟩ := (Bool.and_eq_true _ _).mp hblanks
      have hverbose : r.flags.verbose = false := by simpa using hverbose
      rw [end?_succ hrest hverbose] at h
      obtain ⟨r₁, hstep, h⟩ := Option.bind_eq_some_iff.mp h
      rw [hstep] at hblanks
      obtain ⟨hsteps, hrest'⟩ := ih h hblanks
      exact ⟨.head ⟨hrest, hverbose, hstep⟩ hsteps, hrest'⟩

/-- Nothing else is read up to the end of a source than a run reads that ends there. -/
theorem eq_of_end? {fuel : Nat} {x : Reading} (hsteps : Relation.ReflTransGen Step r r')
    (hrest : r'.rest = []) (h : r.end? fuel = some x) : x = r' := by
  induction hsteps using Relation.ReflTransGen.head_induction_on generalizing fuel with
  | refl => exact Option.some.inj (h.symm.trans (end?_of_rest_eq_nil hrest fuel))
  | head hstep _ ih =>
    obtain ⟨hne, hverbose, hstep⟩ := hstep
    cases fuel with
    | zero => cases (end?_zero hne hverbose).symm.trans h
    | succ fuel =>
      rw [end?_succ hne hverbose, hstep] at h
      exact ih h

/-- The source is read to its end. -/
def Ends (r : Reading) : Prop := ∃ fuel r', r.end? fuel = some r'

theorem Ends.exists_step (h : r.Ends) (hne : r.rest ≠ []) (hblanks : r.flags.verbose = false) :
    ∃ r', r.Step r' := by
  obtain ⟨fuel, x, hend⟩ := h
  cases fuel with
  | zero => cases (end?_zero hne hblanks).symm.trans hend
  | succ fuel =>
    rw [end?_succ hne hblanks] at hend
    obtain ⟨r', hstep, -⟩ := Option.bind_eq_some_iff.mp hend
    exact ⟨r', hne, hblanks, hstep⟩

theorem Ends.of_step (h : r.Ends) (hstep : r.Step r') : r'.Ends := by
  obtain ⟨hne, hblanks, hstep⟩ := hstep
  obtain ⟨fuel, x, hend⟩ := h
  cases fuel with
  | zero => cases (end?_zero hne hblanks).symm.trans hend
  | succ fuel =>
    rw [end?_succ hne hblanks, hstep] at hend
    exact ⟨fuel, x, hend⟩

theorem of_whole? {e : Expr} (h : r.whole? = some e) :
    r.outer = [] ∧ r.group.contents.expr = e := by
  rw [whole?] at h
  split at h
  · rename_i hclosed
    exact ⟨List.isEmpty_iff.mp ((Bool.and_eq_true _ _).mp hclosed).1, Option.some.inj h⟩
  · cases h

/-- What a run that ends with the source has read is what the source stands for. -/
theorem whole?_of_parse? {f : Flags} {source : String} {e : Expr}
    (hsteps : Relation.ReflTransGen Step ⟨source.toList, f, ⟨f, none, [], []⟩, [], 0, []⟩ r)
    (hrest : r.rest = []) (h : Expr.parse? f source = some e) : r.whole? = some e := by
  rw [Expr.parse?, finish?_eq] at h
  obtain ⟨w, hw, hwhole⟩ := Option.bind_eq_some_iff.mp h
  obtain rfl : w = r := eq_of_end? hsteps hrest hw
  exact hwhole

/-! ### Groups that do not record -/

/-- A group opens that does not record. -/
theorem step_opener (hrest : r.rest = '(' :: '?' :: ':' :: more)
    (hblanks : r.flags.verbose = false) :
    r.Step { r with
      rest := more, group := ⟨r.flags, none, [], []⟩, outer := r.group :: r.outer } := by
  have hne : r.rest ≠ [] := by simp [hrest]
  refine ⟨hne, hblanks, ?_⟩
  rw [step?_eq hne, hrest, Flags.element?_opener hblanks]
  rfl

/-- A bar begins another branch. -/
theorem step_bar (hrest : r.rest = '|' :: more) (hblanks : r.flags.verbose = false) :
    r.Step { r with
      rest := more
      group := { r.group with
        alternatives := .sequence r.group.items.reverse :: r.group.alternatives
        items := [] } } := by
  have hne : r.rest ≠ [] := by simp [hrest]
  refine ⟨hne, hblanks, ?_⟩
  rw [step?_eq hne, hrest]
  rfl

/-- A group closes that does not record. -/
theorem step_close {p : OpenGroup} {outer : List OpenGroup} (hrest : r.rest = ')' :: more)
    (hblanks : r.flags.verbose = false) (houter : r.outer = p :: outer)
    (hnumber : r.group.number? = none) :
    r.Step { r with
      rest := more
      flags := r.group.outside
      group := p.add ⟨r.group.contents.expr, r.group.contents.height + 1, true⟩
      outer } := by
  have hne : r.rest ≠ [] := by simp [hrest]
  refine ⟨hne, hblanks, ?_⟩
  rw [step?_eq hne, hrest]
  change Reading.closeGroup? r more = _
  unfold Reading.closeGroup?
  rw [houter, hnumber]

/-- Reader `r` of a spliced source and reader `w` of the piece that has been reached in it, where
`more` is the source behind the piece. -/
structure Follows (r w : Reading) (more : List Char) : Prop where
  simple : r.Simple
  simple' : w.Simple
  alike : r.Alike w
  rest : r.rest = w.rest ++ more
  /-- A repetition may come next only where it would repeat the same. -/
  last : Item.Aligned r.group.items w.group.items ∨ repeats r.rest = false

theorem Follows.step (h : r.Follows w more) (hmore : repeats more = false) (hstep : w.Step w') :
    ∃ r', r.Step r' ∧ r'.Follows w' more := by
  obtain ⟨hne, hblanks, hstep⟩ := hstep
  rw [step?_eq hne] at hstep
  obtain ⟨⟨e, rest⟩, helement, htake⟩ := Option.bind_eq_some_iff.mp hstep
  have hhead {c : Char} (hc : "?*+\x7b".toList.contains c = true) : more.head? ≠ some c := by
    intro hhead
    rw [repeats, hhead, Option.any_some, hc] at hmore
    cases hmore
  have helement' : r.flags.element? r.rest = some (e, rest ++ more) := by
    rw [h.rest, h.alike.flags]
    exact Flags.element?_append hblanks helement (hhead (by decide)) (hhead (by decide))
  have hlast (min : Nat) (max : Option Nat) (lazyMark : Bool)
      (he : e = .repeated min max lazyMark) : Item.Aligned r.group.items w.group.items := by
    refine h.last.resolve_right fun hrepeats => ?_
    subst he
    cases (Flags.element?_yields helement').repeats.symm.trans hrepeats
  have hitem {f : Flags} {cs rest : List Char} (h : f.element? cs = some (e, rest)) (i : Item)
      (he : e = .item i) : i.expr.Simple := by
    subst he
    exact (Flags.element?_yields h).simple
  obtain ⟨r', htake', halike, haligned⟩ := h.alike.take? h.simple h.simple' hlast htake
  have hne' : r.rest ≠ [] := by
    rw [h.rest]
    exact List.append_ne_nil_of_left_ne_nil hne _
  refine ⟨r', ⟨hne', h.alike.flags ▸ hblanks, ?_⟩, ?_⟩
  · rw [step?_eq hne', helement']
    exact htake'
  · exact {
      simple := take?_simple h.simple (hitem helement') htake'
      simple' := take?_simple h.simple' (hitem helement) htake
      alike := halike
      rest := by rw [take?_rest htake', take?_rest htake]
      last := .inl haligned }

theorem Follows.run (h : r.Follows w more) (hmore : repeats more = false)
    (hsteps : Relation.ReflTransGen Step w w') :
    ∃ r', Relation.ReflTransGen Step r r' ∧ r'.Follows w' more := by
  induction hsteps with
  | refl => exact ⟨r, .refl, h⟩
  | tail _ hstep ih =>
    obtain ⟨r₁, hsteps, h₁⟩ := ih
    obtain ⟨r₂, hstep', h₂⟩ := h₁.step hmore hstep
    exact ⟨r₂, hsteps.tail hstep', h₂⟩

end Reading

/-! ## Spliced texts -/

/-- A text as it is spliced into a source. -/
def escaped (cs : List Char) : List Char :=
  cs.flatMap fun c => if isMeta c then ['\\', c] else [c]

theorem toList_escape (s : String) : (escape s).toList = escaped s.toList :=
  String.toList_ofList

theorem isMeta_cases {c : Char} (h : isMeta c = true) :
    c.isDigit = false ∧ c ∉ ['x', 'u', 'U', 'p', 'P'] ∧ "dswDSW".toList.contains c = false := by
  have hall : ("\\.+*?()|[]\x7b\x7d^$#&-~".toList.all fun c => !c.isDigit &&
      (!(['x', 'u', 'U', 'p', 'P'].contains c) && !"dswDSW".toList.contains c)) = true := by decide
  simpa using List.all_eq_true.mp hall c (List.contains_iff_mem.mp h)

theorem Flags.readEscape?_of_isMeta (f : Flags) {c : Char} (h : isMeta c = true)
    (more : List Char) : f.readEscape? (c :: more) = some (.char c false, more) := by
  obtain ⟨hdigit, hletter, hperl⟩ := isMeta_cases h
  simp only [List.mem_cons, not_or] at hletter
  obtain ⟨hx, hu, hU, hp, hP, -⟩ := hletter
  rw [readEscape?_cons, hdigit, if_neg Bool.false_ne_true, if_neg (by simp [hx, hu, hU]),
    if_neg (by simp [hp, hP]), readSign?, hperl, if_neg Bool.false_ne_true, if_pos h]

/-- A spliced character is read as itself. -/
theorem Flags.element?_escaped (f : Flags) (c : Char) (more : List Char) :
    f.element? ((if isMeta c then ['\\', c] else [c]) ++ more) =
      some (.item ⟨f.charExpr c, 0, true⟩, more) := by
  by_cases h : isMeta c = true
  · rw [if_pos h]
    refine (congrArg (Option.bind · _) (f.readEscape?_of_isMeta h more)).trans ?_
    exact congrArg (Option.map _) (f.charExpr?_eq c)
  · rw [if_neg h, List.singleton_append]
    trans (f.charExpr? c false).map fun e => (Element.item ⟨e, 0, true⟩, more)
    · unfold element?
      dsimp only
      split
      all_goals rename_i heq
      case h_1 => cases heq
      case h_14 =>
        obtain ⟨rfl, rfl⟩ := List.cons.inj heq
        rfl
      all_goals
        obtain ⟨rfl, -⟩ := List.cons.inj heq
        exact absurd (by decide) h
    · rw [f.charExpr?_eq c]
      rfl

namespace Reading
variable {r w : Reading} {cs more : List Char}

/-- A spliced text is read character by character. -/
theorem steps_escaped (hrest : r.rest = escaped cs ++ more) (hblanks : r.flags.verbose = false) :
    Relation.ReflTransGen Step r { r with
      rest := more
      group := { r.group with
        items := (cs.map fun c => ⟨r.flags.charExpr c, 0, true⟩).reverse ++ r.group.items } } := by
  induction cs generalizing r with
  | nil =>
    obtain rfl : r.rest = more := hrest
    exact .refl
  | cons c cs ih =>
    have hne : r.rest ≠ [] := by
      rw [hrest, escaped, List.flatMap_cons, List.append_assoc]
      refine List.append_ne_nil_of_left_ne_nil ?_ _
      split <;> exact List.cons_ne_nil _ _
    have hstep : r.step? = some (r.add ⟨r.flags.charExpr c, 0, true⟩ (escaped cs ++ more)) := by
      rw [step?_eq hne, hrest, escaped, List.flatMap_cons, List.append_assoc,
        Flags.element?_escaped]
      rfl
    have hsteps := ih (r := r.add ⟨r.flags.charExpr c, 0, true⟩ (escaped cs ++ more)) rfl hblanks
    refine .head ⟨hne, hblanks, hstep⟩ ?_
    simpa [add, OpenGroup.add] using hsteps

theorem Follows.unit (h : r.Follows w (escaped cs ++ more)) (hrest : w.rest = [])
    (hblanks : w.flags.verbose = false) (hmore : cs.length = 1 ∨ repeats more = false) :
    ∃ r', Relation.ReflTransGen Step r r' ∧ r'.Follows (w.add (w.flags.unit cs) []) more := by
  have hrest' : r.rest = escaped cs ++ more := by rw [h.rest, hrest, List.nil_append]
  have hchars (f : Flags) : ∀ e ∈ cs.map f.charExpr, e.Simple :=
    List.forall_mem_map.mpr fun c _ => f.charExpr_simple c
  obtain ⟨hgroup, houter⟩ := List.forall_mem_cons.mp h.simple
  obtain ⟨hgroup', houter'⟩ := List.forall_mem_cons.mp h.simple'
  refine ⟨_, steps_escaped hrest' (h.alike.flags ▸ hblanks), ?_⟩
  exact {
    simple := by
      refine List.forall_mem_cons.mpr ⟨⟨?_, hgroup.alternatives⟩, houter⟩
      refine List.forall_mem_append.mpr ⟨fun i hi => ?_, hgroup.items⟩
      obtain ⟨c, -, rfl⟩ := List.mem_map.mp (List.mem_reverse.mp hi)
      exact r.flags.charExpr_simple c
    simple' := List.forall_mem_cons.mpr ⟨hgroup'.add (Expr.concat_simple (hchars _)), houter'⟩
    alike := by
      obtain ⟨hflags, halike, houter, hopened, hnames⟩ := h.alike
      refine ⟨hflags, ⟨halike.outside, halike.number?, halike.alternatives, ?_⟩, houter, hopened,
        hnames⟩
      have hmap : (cs.map fun c => (⟨r.flags.charExpr c, 0, true⟩ : Item)).map (·.expr) =
          cs.map w.flags.charExpr := by
        rw [List.map_map, hflags]
        rfl
      simp only [add, OpenGroup.add, List.reverse_append, List.reverse_reverse, List.reverse_cons,
        List.map_append, List.map_singleton, hmap]
      refine (Expr.concat_append_congr ?_ ?_ halike.items).trans
        (Expr.concat_append_concat (hchars _)).symm
      · exact List.forall_mem_map.mpr fun i hi => hgroup.items i (List.mem_reverse.mp hi)
      · exact List.forall_mem_map.mpr fun i hi => hgroup'.items i (List.mem_reverse.mp hi)
    rest := rfl
    last := by
      refine hmore.imp (fun hlength => ?_) id
      obtain ⟨c, rfl⟩ := List.length_eq_one_iff.mp hlength
      have hexpr : r.flags.charExpr c = Expr.concat [w.flags.charExpr c] := by
        rw [h.alike.flags, Expr.concat_singleton (w.flags.charExpr_simple c)]
      exact ⟨hexpr, rfl, h.alike.group.items⟩ }

end Reading
end Tinct.Regex
