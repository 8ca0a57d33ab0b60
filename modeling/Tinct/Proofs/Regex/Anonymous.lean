import Tinct.Proofs.Regex.Proper

/-!
# Expressions whose groups without a name do not record

An expression matches the same where its groups without a name do not record, and its named groups
take the same:

* `Expr.Spreads`: what an expression has if one of its parts has it, in simple form too;
* `Expr.Anonymized`: an expression is another one without the groups that have no name;
* `Expr.Anonymized.concat`, `Expr.Anonymized.choice`, `Expr.Anonymized.repeated`: what is built of
  such expressions is such an expression;
* `Item.InRow.flatten`, `Item.Branches.flatten`: so is what is built of their elements or of their
  branches, all in one place;
* `Reading.Beside`: a reader holds such expressions where another one holds the expressions;
* `Reading.Beside.take?`: it goes on to do so, if it takes the elements that the other one takes.
-/

namespace Tinct.Regex
namespace Expr

/-! ## What is spread over the parts of an expression -/

/-- What an expression has if one of its parts has it; all sets have it, and all single characters,
or none. -/
structure Spreads (P : Expr → Prop) : Prop where
  empty : ¬P .empty
  seq : ∀ a b, P (.seq a b) ↔ P a ∨ P b
  alt : ∀ a b, P (.alt a b) ↔ P a ∨ P b
  literal : ∀ as bs, P (.literal (as ++ bs)) ↔ P (.literal as) ∨ P (.literal bs)
  char : ∀ c s, P (.literal [c]) ↔ P (.set s)

namespace Spreads
variable {P : Expr → Prop}

theorem set (h : Spreads P) (s s' : CharSet) : P (.set s) ↔ P (.set s') :=
  (h.char 'a' s).symm.trans (h.char 'a' s')

theorem ofSet (h : Spreads P) (s s' : CharSet) : P (.ofSet s) ↔ P (.set s') := by
  rw [Expr.ofSet]
  split
  · exact h.char _ _
  · exact h.set _ _

theorem seqs (h : Spreads P) (es : List Expr) : P (.seqs es) ↔ ∃ e ∈ es, P e := by
  induction es with
  | nil => simpa [Expr.seqs] using h.empty
  | cons e es ih =>
    rw [List.exists_mem_cons_iff, ← ih]
    cases es with
    | nil => exact ⟨.inl, fun hP => hP.resolve_right h.empty⟩
    | cons e' es => exact h.seq e _

theorem factors (h : Spreads P) (e : Expr) : (∃ f ∈ e.factors, P f) ↔ P e := by
  induction e with
  | empty => simpa [Expr.factors] using h.empty
  | seq a b _ ih => rw [Expr.factors, List.exists_mem_cons_iff, ih, h.seq]
  | _ => simp [Expr.factors]

theorem joinLiterals (h : Spreads P) (es : List Expr) :
    (∃ f ∈ joinLiterals es, P f) ↔ ∃ e ∈ es, P e := by
  induction es with
  | nil => rfl
  | cons e es ih =>
    rw [List.exists_mem_cons_iff, ← ih]
    cases e with
    | literal cs =>
      obtain ⟨ds, es', hes, hjoin⟩ | ⟨-, hjoin⟩ := joinLiterals_literal cs es
      · rw [hjoin, hes, List.exists_mem_cons_iff, List.exists_mem_cons_iff, h.literal, or_assoc]
      · rw [hjoin, List.exists_mem_cons_iff]
    | _ => exact List.exists_mem_cons_iff ..

theorem concat (h : Spreads P) (es : List Expr) : P (.concat es) ↔ ∃ e ∈ es, P e := by
  rw [Expr.concat, h.seqs, h.joinLiterals]
  simp only [List.mem_flatMap]
  constructor
  · rintro ⟨f, ⟨e, he, hf⟩, hP⟩
    exact ⟨e, he, (h.factors e).mp ⟨f, hf, hP⟩⟩
  · rintro ⟨e, he, hP⟩
    obtain ⟨f, hf, hP⟩ := (h.factors e).mpr hP
    exact ⟨f, ⟨e, he, hf⟩, hP⟩

/-- Branches of which each is a single character, or each a set, have it if sets have it. -/
theorem of_mapM (h : Spreads P) {bs : List Expr} {ss : List CharSet}
    (hss : (bs.mapM char?).or (bs.mapM set?) = some ss) (s : CharSet) :
    ∀ b ∈ bs, (P b ↔ P (.set s)) := by
  have hall : List.Forall₂ (fun b _ => (P b ↔ P (.set s)) ∧ True) bs ss := by
    obtain hchars | ⟨-, hsets⟩ := Option.or_eq_some_iff.mp hss
    · refine forall₂_of_mapM hchars fun b _ s' hs => ⟨?_, trivial⟩
      unfold char? at hs
      split at hs
      · exact h.char _ s
      · cases hs
    · refine forall₂_of_mapM hsets fun b _ s' hs => ⟨?_, trivial⟩
      unfold set? at hs
      split at hs
      · exact h.set _ s
      · cases hs
  exact ((List.forall₂_and_left _ _).mp hall).1

theorem oneOf (h : Spreads P) {es : List Expr} (hne : es ≠ []) :
    P (.oneOf es) ↔ ∃ e ∈ es, P e := by
  have hne' := flatMap_branches_ne_nil hne
  rw [← exists_flatMap_branches h.alt]
  obtain ⟨e, hes, hone⟩ | ⟨ss, hss, hone⟩ | hone := oneOf_cases es
  · simp [hone, hes]
  · obtain ⟨b, hb⟩ := List.exists_mem_of_ne_nil _ hne'
    have hset := h.of_mapM hss .empty
    rw [hone, h.ofSet _ .empty]
    exact ⟨fun hP => ⟨b, hb, (hset b hb).mpr hP⟩, fun ⟨b, hb, hP⟩ => (hset b hb).mp hP⟩
  · rw [hone]
    exact alts_iff h.alt hne'

/-- A choice has it if one of its branches has it, whether these share elements or not. -/
theorem choice (h : Spreads P) {es : List Expr} (hne : es ≠ []) :
    P (.choice es) ↔ ∃ e ∈ es, P e := by
  have hne' := flatMap_branches_ne_nil hne
  have hflatMap := exists_flatMap_branches h.alt es
  obtain hchoice | ⟨start, rests, hrests, hfactors, hchoice⟩ := choice_cases es
  · rw [hchoice, h.oneOf hne', hflatMap]
  · have hfactor : (∃ b ∈ es.flatMap branches, P b) ↔
        ∃ rest ∈ rests, ∃ f ∈ start ++ rest, P f := by
      trans ∃ fs ∈ (es.flatMap branches).map Expr.factors, ∃ f ∈ fs, P f
      · simp only [List.mem_map, exists_exists_and_eq_and, h.factors]
      · simp only [hfactors, List.mem_map, exists_exists_and_eq_and]
    rw [← hflatMap, hfactor, hchoice, h.concat]
    simp only [List.mem_append, List.mem_singleton, or_and_right, exists_or, exists_eq_left,
      h.oneOf (List.map_eq_nil_iff.not.mpr hrests), List.mem_map, exists_exists_and_eq_and,
      h.concat]
    obtain ⟨rest, hrest⟩ := List.exists_mem_of_ne_nil rests hrests
    grind

end Spreads

/-- The expression has a group of this name, or one without a name. -/
def HasGroup (name : Option String) (e : Expr) : Prop := ∃ i, (i, name) ∈ e.groups

theorem spreads_hasGroup (name : Option String) : Spreads (HasGroup name) where
  empty := by simp [HasGroup, groups]
  seq a b := by simp [HasGroup, groups, exists_or]
  alt a b := by simp [HasGroup, groups, exists_or]
  literal as bs := by simp [HasGroup, groups]
  char c s := by simp [HasGroup, groups]

theorem spreads_isEmptyWidth : Spreads (·.isEmptyWidth = false) where
  empty := by simp [isEmptyWidth]
  seq a b := Bool.and_eq_false_iff
  alt a b := Bool.and_eq_false_iff
  literal as bs := by cases as <;> simp [isEmptyWidth]
  char c s := by simp [isEmptyWidth]

theorem hasGroup_group {i : Nat} {name name' : Option String} {e : Expr} :
    (group i name e).HasGroup name' ↔ name' = name ∨ e.HasGroup name' := by
  simp [HasGroup, groups, exists_or]

/-! ## Anonymous groups -/

/-- The expression `e'` is `e`, but that groups without a name do not record: it matches the same
parts of any text in the same ways, and the groups that record are those of `e` that have a name. -/
structure Anonymized (e' e : Expr) : Prop where
  ways : ∀ t, e'.ways t = e.ways t
  unnamed : ¬e'.HasGroup none
  named : ∀ name : String, e'.HasGroup (some name) ↔ e.HasGroup (some name)
  /-- Whether nothing is read decides how often a repetition is tried. -/
  isEmptyWidth : e'.isEmptyWidth = e.isEmptyWidth
  proper : e'.Proper ∧ e.Proper

theorem exists_iff_of_forall₂ {α : Type} {R : α → α → Prop} {P Q : α → Prop} {as bs : List α}
    (h : List.Forall₂ R as bs) (hPQ : ∀ a b, R a b → (P a ↔ Q b)) :
    (∃ a ∈ as, P a) ↔ ∃ b ∈ bs, Q b := by
  induction h with
  | nil => simp
  | cons hab _ ih => rw [List.exists_mem_cons_iff, List.exists_mem_cons_iff, hPQ _ _ hab, ih]

namespace Anonymized
variable {e e' : Expr} {es es' : List Expr}

theorem of_groups (h : e.Proper) (hgroups : e.groups = []) : e.Anonymized e where
  ways _ := rfl
  unnamed := by simp [HasGroup, hgroups]
  named _ := Iff.rfl
  isEmptyWidth := rfl
  proper := ⟨h, h⟩

theorem empty : Anonymized .empty .empty := of_groups trivial rfl

/-- A group without a name is none. -/
theorem anonymous (h : e'.Anonymized e) (i : Nat) : e'.Anonymized (.group i none e) where
  ways t := (h.ways t).trans (Ways.record_none _).symm
  unnamed := h.unnamed
  named name := (h.named name).trans (by simp [hasGroup_group])
  isEmptyWidth := h.isEmptyWidth
  proper := h.proper

/-- A group with a name keeps it, whatever its number is. -/
theorem group (h : e'.Anonymized e) (i' i : Nat) (name : String) :
    Anonymized (.group i' (some name) e') (.group i (some name) e) where
  ways t := congrArg (Ways.record (some name)) (h.ways t)
  unnamed := by simp [hasGroup_group, h.unnamed]
  named name := by simp [hasGroup_group, h.named]
  isEmptyWidth := h.isEmptyWidth
  proper := h.proper

theorem forall_proper (h : List.Forall₂ Anonymized es' es) :
    (∀ e ∈ es', e.Proper) ∧ ∀ e ∈ es, e.Proper := by
  induction h with
  | nil => exact ⟨nofun, nofun⟩
  | cons he _ ih =>
    exact ⟨List.forall_mem_cons.mpr ⟨he.proper.1, ih.1⟩,
      List.forall_mem_cons.mpr ⟨he.proper.2, ih.2⟩⟩

/-- Expressions that match alike, and over which what their parts have is spread. -/
theorem of_spreads (h : List.Forall₂ Anonymized es' es) (hways : ∀ t, e'.ways t = e.ways t)
    (hproper : e'.Proper ∧ e.Proper)
    (hparts : ∀ P, Spreads P → (P e' ↔ ∃ e ∈ es', P e) ∧ (P e ↔ ∃ e ∈ es, P e)) :
    e'.Anonymized e := by
  have hgroup (name : Option String) := hparts _ (spreads_hasGroup name)
  have hwidth := hparts _ spreads_isEmptyWidth
  refine ⟨hways, fun hnone => ?_, fun name => ?_, ?_, hproper⟩
  · have hnone' := (exists_iff_of_forall₂ h (Q := fun _ => False) fun _ _ he =>
      iff_of_false he.unnamed id).mp ((hgroup none).1.mp hnone)
    simp at hnone'
  · rw [(hgroup name).1, (hgroup name).2]
    exact exists_iff_of_forall₂ h fun _ _ he => he.named name
  · have hiff : e'.isEmptyWidth = false ↔ e.isEmptyWidth = false := by
      rw [hwidth.1, hwidth.2]
      exact exists_iff_of_forall₂ h fun _ _ he => by rw [he.isEmptyWidth]
    exact Bool.eq_iff_iff.mpr (by simpa using not_congr hiff)

theorem map_ways (h : List.Forall₂ Anonymized es' es) (t : Text) :
    es'.map (Expr.ways t) = es.map (Expr.ways t) := by
  induction h with
  | nil => rfl
  | cons he _ ih => rw [List.map_cons, List.map_cons, he.ways, ih]

theorem concat (h : List.Forall₂ Anonymized es' es) :
    (Expr.concat es').Anonymized (Expr.concat es) := by
  have hproper := forall_proper h
  refine of_spreads h (fun t => ?_) ⟨proper_concat hproper.1, proper_concat hproper.2⟩
    fun P hP => ⟨hP.concat es', hP.concat es⟩
  rw [ways_concat, ways_concat, map_ways h]

theorem choice (h : List.Forall₂ Anonymized es' es) (hne : es ≠ []) :
    (Expr.choice es').Anonymized (Expr.choice es) := by
  have hproper := forall_proper h
  have hne' : es' ≠ [] := by
    rintro rfl
    cases h
    exact hne rfl
  refine of_spreads h (fun t => ?_) ⟨proper_choice hproper.1, proper_choice hproper.2⟩
    fun P hP => ⟨hP.choice hne', hP.choice hne⟩
  ext i j taken
  rw [ways_choice hproper.1, ways_choice hproper.2]
  exact exists_iff_of_forall₂ h fun _ _ he => by rw [he.ways]

theorem rep (h : e'.Anonymized e) {min : Nat} {max : Option Nat} (hle : ∀ m ∈ max, min ≤ m)
    (greedy : Bool) : (Expr.rep e' min max greedy).Anonymized (.rep e min max greedy) where
  ways t := by rw [Expr.ways, Expr.ways, h.ways]
  unnamed := h.unnamed
  named := h.named
  isEmptyWidth := h.isEmptyWidth
  proper := ⟨⟨h.proper.1, hle⟩, h.proper.2, hle⟩

theorem repeated (h : e'.Anonymized e) {min : Nat} {max : Option Nat} (hle : ∀ m ∈ max, min ≤ m)
    (greedy : Bool) : (e'.repeated min max greedy).Anonymized (e.repeated min max greedy) := by
  obtain ⟨lo, hi, hbounds, hrepeated⟩ := repeated_cases e min max greedy
  rw [hrepeated e rfl, hrepeated e' h.isEmptyWidth]
  split
  · exact .empty
  · split
    · exact h
    · exact h.rep (hbounds hle) greedy

/-- What matches alike and is spread alike is as good. -/
theorem congr {e'' : Expr} (h : e''.Anonymized e) (hways : ∀ t, e'.ways t = e''.ways t)
    (hparts : ∀ P, Spreads P → (P e' ↔ P e'')) (hproper : e'.Proper) : e'.Anonymized e where
  ways t := (hways t).trans (h.ways t)
  unnamed hgroup := h.unnamed ((hparts _ (spreads_hasGroup none)).mp hgroup)
  named name := (hparts _ (spreads_hasGroup name)).trans (h.named name)
  isEmptyWidth := by
    have hwidth := hparts _ spreads_isEmptyWidth
    rw [← h.isEmptyWidth]
    exact Bool.eq_iff_iff.mpr (by simpa using not_congr hwidth)
  proper := ⟨hproper, h.proper.2⟩

end Anonymized
end Expr

/-! ## Items -/

/-- An item that stands for the same but for groups without a name. -/
structure Item.Anonymized (i' i : Item) : Prop where
  expr : i'.expr.Anonymized i.expr
  repeatable : i'.repeatable = i.repeatable

namespace Item
variable {is' is : List Item}

theorem spreads_sequence {P : Expr → Prop} (h : Expr.Spreads P) (is : List Item) :
    P (sequence is).expr ↔ ∃ i ∈ is, P i.expr := by
  unfold sequence
  split
  · simpa using h.empty
  · simp
  · rw [h.concat]
    simp only [List.mem_map, exists_exists_and_eq_and]

theorem spreads_choice {P : Expr → Prop} (h : Expr.Spreads P) (hne : is ≠ []) :
    P (choice is).expr ↔ ∃ i ∈ is, P i.expr := by
  unfold choice
  split
  · exact absurd rfl hne
  · simp
  · rw [h.choice (List.map_eq_nil_iff.not.mpr hne)]
    simp only [List.mem_map, exists_exists_and_eq_and]

theorem Anonymized.map_expr (h : List.Forall₂ Anonymized is' is) :
    List.Forall₂ Expr.Anonymized (is'.map (·.expr)) (is.map (·.expr)) := by
  rw [List.forall₂_map_left_iff, List.forall₂_map_right_iff]
  exact h.imp fun _ _ hi => hi.expr

theorem Anonymized.sequence (h : List.Forall₂ Anonymized is' is) :
    (Item.sequence is').Anonymized (.sequence is) := by
  cases h with
  | nil => exact ⟨.empty, rfl⟩
  | cons hi hrest =>
    cases hrest with
    | nil => exact hi
    | cons hi' hrest => exact ⟨.concat (map_expr (.cons hi (.cons hi' hrest))), rfl⟩

theorem Anonymized.choice (h : List.Forall₂ Anonymized is' is) :
    (Item.choice is').Anonymized (.choice is) := by
  cases h with
  | nil => exact ⟨.empty, rfl⟩
  | cons hi hrest =>
    cases hrest with
    | nil => exact hi
    | cons hi' hrest =>
      exact ⟨.choice (map_expr (.cons hi (.cons hi' hrest))) (List.cons_ne_nil _ _), rfl⟩

/-! ### In place of an expression -/

theorem exists_mem_flatten_iff {α : Type} {ass : List (List α)} {P : List α → Prop} {Q : α → Prop}
    (h : ∀ as ∈ ass, (P as ↔ ∃ a ∈ as, Q a)) :
    (∃ a ∈ ass.flatten, Q a) ↔ ∃ as ∈ ass, P as := by
  simp only [List.mem_flatten]
  constructor
  · rintro ⟨a, ⟨as, has, ha⟩, hQ⟩
    exact ⟨as, has, (h as has).mpr ⟨a, ha, hQ⟩⟩
  · rintro ⟨as, has, hP⟩
    obtain ⟨a, ha, hQ⟩ := (h as has).mp hP
    exact ⟨a, ⟨as, has, ha⟩, hQ⟩

/-- Elements in a row stand for the expression `e`, but that groups without a name do not record. -/
structure InRow (is : List Item) (e : Expr) : Prop where
  proper : ∀ i ∈ is, i.expr.Proper
  anonymized : (sequence is).expr.Anonymized e

/-- So does the choice between branches. -/
structure Branches (bs : List Item) (e : Expr) : Prop where
  ne_nil : bs ≠ []
  proper : ∀ b ∈ bs, b.expr.Proper
  anonymized : (choice bs).expr.Anonymized e

variable {es : List Expr}

theorem InRow.branches {e : Expr} (h : InRow is e) : Branches [sequence is] e :=
  ⟨List.cons_ne_nil _ _, List.forall_mem_singleton.mpr (proper_sequence h.proper), h.anonymized⟩

theorem InRow.singleton {i : Item} {e : Expr} (h : i.expr.Anonymized e) : InRow [i] e :=
  ⟨List.forall_mem_singleton.mpr h.proper.1, h⟩

/-- Elements of sequences in a row stand for the sequence of these. -/
theorem InRow.flatten {iss : List (List Item)} (h : List.Forall₂ InRow iss es) :
    InRow iss.flatten (.concat es) := by
  have hproper : ∀ i ∈ iss.flatten, i.expr.Proper := by
    induction h with
    | nil => exact nofun
    | cons his _ ih =>
      rw [List.flatten_cons]
      exact List.forall_mem_append.mpr ⟨his.proper, ih⟩
  have hanonymized : List.Forall₂ Expr.Anonymized (iss.map fun is => (sequence is).expr) es := by
    rw [List.forall₂_map_left_iff]
    exact h.imp fun _ _ his => his.anonymized
  refine ⟨hproper, (Expr.Anonymized.concat hanonymized).congr (fun t => ?_) (fun P hP => ?_)
    (proper_sequence hproper)⟩
  · rw [ways_sequence, List.map_flatten, Ways.row_flatten, Expr.ways_concat, List.map_map,
      List.map_map]
    exact congrArg Ways.row (List.map_congr_left fun is _ => (ways_sequence t is).symm)
  · rw [hP.concat, spreads_sequence hP,
      exists_mem_flatten_iff fun is _ => spreads_sequence hP is]
    simp only [List.mem_map, exists_exists_and_eq_and]

/-- Branches of choices stand for the choice between these. -/
theorem Branches.flatten {bss : List (List Item)} (h : List.Forall₂ Branches bss es)
    (hne : es ≠ []) : Branches bss.flatten (.choice es) := by
  have hparts : ∀ bs ∈ bss, bs ≠ [] ∧ ∀ b ∈ bs, b.expr.Proper := by
    clear hne
    induction h with
    | nil => exact nofun
    | cons hbs _ ih => exact List.forall_mem_cons.mpr ⟨⟨hbs.ne_nil, hbs.proper⟩, ih⟩
  have hproper : ∀ b ∈ bss.flatten, b.expr.Proper := by
    intro b hb
    obtain ⟨bs, hbs, hb⟩ := List.mem_flatten.mp hb
    exact (hparts bs hbs).2 b hb
  have hne' : bss ≠ [] := by
    rintro rfl
    cases h
    exact hne rfl
  have hne'' : bss.flatten ≠ [] := by
    obtain ⟨bs, hbs⟩ := List.exists_mem_of_ne_nil bss hne'
    obtain ⟨b, hb⟩ := List.exists_mem_of_ne_nil bs (hparts bs hbs).1
    exact List.ne_nil_of_mem (List.mem_flatten.mpr ⟨bs, hbs, hb⟩)
  have hanonymized : List.Forall₂ Expr.Anonymized (bss.map fun bs => (choice bs).expr) es := by
    rw [List.forall₂_map_left_iff]
    exact h.imp fun _ _ hbs => hbs.anonymized
  have hchoices : ∀ e ∈ bss.map fun bs => (choice bs).expr, e.Proper :=
    List.forall_mem_map.mpr fun bs hbs => proper_choice (hparts bs hbs).2
  refine ⟨hne'', hproper, (Expr.Anonymized.choice hanonymized hne).congr (fun t => ?_)
    (fun P hP => ?_) (proper_choice hproper)⟩
  · ext i j taken
    rw [ways_choice hproper hne'', Expr.ways_choice hchoices]
    rw [exists_mem_flatten_iff fun bs hbs => ways_choice (hparts bs hbs).2 (hparts bs hbs).1]
    simp only [List.mem_map, exists_exists_and_eq_and]
  · rw [spreads_choice hP hne'', hP.choice (List.map_eq_nil_iff.not.mpr hne'),
      exists_mem_flatten_iff fun bs hbs => spreads_choice hP (hparts bs hbs).1]
    simp only [List.mem_map, exists_exists_and_eq_and]

end Item

/-! ### Items that are read -/

theorem Expr.groups_ofSet (s : CharSet) : (ofSet s).groups = [] := by
  rw [ofSet]
  split <;> rfl

namespace Flags
variable {f : Flags}

theorem Literal.groups {e : Expr} (h : f.Literal e) : e.groups = [] := by
  obtain ⟨c, rfl⟩ | ⟨s, rfl⟩ | ⟨s, rfl⟩ | ⟨l, rfl⟩ := h.cases
  · rfl
  · exact Expr.groups_ofSet s
  · rfl
  · rfl

/-- No group is read with an item. -/
theorem Yields.anonymized {cs : List Char} {i : Item} (h : f.Yields cs (.item i)) :
    i.Anonymized i := by
  refine ⟨.of_groups h.proper ?_, rfl⟩
  cases h with
  | literal h => exact h.groups
  | bracketed => exact Expr.groups_ofSet _
  | mark h => cases h

end Flags

/-! ## Readers -/

/-- What is read where a group without a name does not record. -/
def Element.anonymous (f : Flags) : Element → Element
  | .numbered none => .flagged f
  | e => e

/-- Whether groups record, and under which name. -/
inductive Unnumbered : Option (Nat × Option String) → Option (Nat × Option String) → Prop
  | flagged : Unnumbered none none
  | anonymous (i : Nat) : Unnumbered none (some (i, none))
  | named (i' i : Nat) (name : String) : Unnumbered (some (i', some name)) (some (i, some name))

/-- The group `g'` is `g₀` with what the group `g` holds. -/
structure OpenGroup.Gains (g₀ g' g : OpenGroup) : Prop where
  outside : g'.outside = g₀.outside
  number? : g'.number? = g₀.number?
  items : ∃ is, List.Forall₂ Item.Anonymized is g.items ∧ g'.items = is ++ g₀.items
  alternatives : ∃ as, List.Forall₂ Item.Anonymized as g.alternatives ∧
    g'.alternatives = as ++ g₀.alternatives

namespace OpenGroup.Gains
variable {g₀ g' g : OpenGroup}

theorem refl (g₀ : OpenGroup) (outside : Flags) (number? : Option (Nat × Option String)) :
    g₀.Gains g₀ ⟨outside, number?, [], []⟩ :=
  ⟨rfl, rfl, ⟨[], .nil, rfl⟩, ⟨[], .nil, rfl⟩⟩

theorem opened {outside' outside : Flags} (h : outside' = outside)
    (number?' number? : Option (Nat × Option String)) :
    Gains ⟨outside, number?', [], []⟩ ⟨outside', number?', [], []⟩ ⟨outside, number?, [], []⟩ :=
  ⟨h, rfl, ⟨[], .nil, rfl⟩, ⟨[], .nil, rfl⟩⟩

theorem add (h : g₀.Gains g' g) {i' i : Item} (hi : i'.Anonymized i) :
    g₀.Gains (g'.add i') (g.add i) := by
  obtain ⟨is, his, hitems⟩ := h.items
  exact ⟨h.outside, h.number?, ⟨i' :: is, .cons hi his, congrArg (i' :: ·) hitems⟩, h.alternatives⟩

/-- A branch ends in a group in which nothing stood in front of what it has gained. -/
theorem alternate (h : g₀.Gains g' g) (hnil : g₀.items = []) :
    g₀.Gains
      { g' with alternatives := .sequence g'.items.reverse :: g'.alternatives, items := [] }
      { g with alternatives := .sequence g.items.reverse :: g.alternatives, items := [] } := by
  obtain ⟨is, his, hitems⟩ := h.items
  obtain ⟨as, has, halternatives⟩ := h.alternatives
  have hsequence : (Item.sequence g'.items.reverse).Anonymized (.sequence g.items.reverse) := by
    rw [hitems, hnil, List.append_nil]
    exact .sequence (List.forall₂_reverse_iff.mpr his)
  exact ⟨h.outside, h.number?, ⟨[], .nil, by rw [hnil]; rfl⟩,
    ⟨_ :: as, .cons hsequence has, congrArg (_ :: ·) halternatives⟩⟩

/-- The last item is repeated. -/
theorem again (h : g₀.Gains g' g) {i : Item} {is : List Item} (hitems : g.items = i :: is)
    {min : Nat} {max : Option Nat} (hle : ∀ m ∈ max, min ≤ m) (greedy : Bool) :
    ∃ i' is', g'.items = i' :: is' ∧ i'.repeatable = i.repeatable ∧
      g₀.Gains
        { g' with items := ⟨i'.expr.repeated min max greedy, i'.height + 1, true⟩ :: is' }
        { g with items := ⟨i.expr.repeated min max greedy, i.height + 1, true⟩ :: is } := by
  obtain ⟨js, hjs, hg'⟩ := h.items
  rw [hitems] at hjs
  cases hjs with
  | @cons i' _ is' _ hi his =>
    have hrepeated : Item.Anonymized ⟨i'.expr.repeated min max greedy, i'.height + 1, true⟩
        ⟨i.expr.repeated min max greedy, i.height + 1, true⟩ := ⟨hi.expr.repeated hle greedy, rfl⟩
    exact ⟨i', is' ++ g₀.items, hg', hi.repeatable, h.outside, h.number?,
      ⟨_ :: is', .cons hrepeated his, rfl⟩, h.alternatives⟩

/-- The contents of a group that has gained all that it holds. -/
theorem contents (h : g₀.Gains g' g) (hitems : g₀.items = [])
    (halternatives : g₀.alternatives = []) : g'.contents.Anonymized g.contents := by
  obtain ⟨is, his, hg'⟩ := h.items
  obtain ⟨as, has, has'⟩ := h.alternatives
  rw [hitems, List.append_nil] at hg'
  rw [halternatives, List.append_nil] at has'
  refine .choice (List.forall₂_reverse_iff.mpr (.cons ?_ ?_))
  · rw [hg']
    exact .sequence (List.forall₂_reverse_iff.mpr his)
  · rw [has']
    exact has

/-- What a group has gained, in order. -/
theorem exists_branches (h : g₀.Gains g' g) : ∃ branches is,
    g' = { g₀ with
      alternatives := branches.reverse ++ g₀.alternatives, items := is.reverse ++ g₀.items } ∧
    (g.alternatives = [] → branches = []) ∧ (∀ i ∈ is, i.expr.Proper) ∧
    Item.Branches (branches ++ [.sequence is]) g.contents.expr := by
  have hproper {is' is : List Item} (h : List.Forall₂ Item.Anonymized is' is) :
      ∀ i ∈ is'.reverse, i.expr.Proper := by
    intro i hi
    exact (Expr.Anonymized.forall_proper (Item.Anonymized.map_expr h)).1 _
      (List.mem_map_of_mem (List.mem_reverse.mp hi))
  obtain ⟨is, his, hitems⟩ := h.items
  obtain ⟨as, has, halternatives⟩ := h.alternatives
  have hgains : Gains ⟨g.outside, none, [], []⟩ ⟨g.outside, none, as, is⟩ g :=
    ⟨rfl, rfl, ⟨is, his, (List.append_nil is).symm⟩, ⟨as, has, (List.append_nil as).symm⟩⟩
  have hcontents := hgains.contents rfl rfl
  rw [OpenGroup.contents, List.reverse_cons] at hcontents
  refine ⟨as.reverse, is.reverse, ?_, fun hnil => ?_, hproper his, by simp, ?_, hcontents.expr⟩
  · rw [List.reverse_reverse, List.reverse_reverse, ← hitems, ← halternatives, ← h.outside,
      ← h.number?]
  · rw [hnil] at has
    cases has
    rfl
  · refine List.forall_mem_append.mpr ⟨hproper has, List.forall_mem_singleton.mpr ?_⟩
    exact Item.proper_sequence (hproper his)

end OpenGroup.Gains

/-- Open groups, innermost first: the last one of `gs` and what lies outside of it is `g₀` and
`outer₀`, and the groups inside of it are those of `gs`. -/
inductive OpenGroup.Within (g₀ : OpenGroup) (outer₀ : List OpenGroup) :
    List OpenGroup → List OpenGroup → Prop
  | base {g' g : OpenGroup} (h : g₀.Gains g' g) : Within g₀ outer₀ (g' :: outer₀) [g]
  | inner {g' g : OpenGroup} {gs' gs : List OpenGroup} {number? : Option (Nat × Option String)}
    (hnumber : Unnumbered number? g.number?)
    (h : OpenGroup.Gains ⟨g.outside, number?, [], []⟩ g' g) :
    Within g₀ outer₀ gs' gs → Within g₀ outer₀ (g' :: gs') (g :: gs)

/-- Reader `r` holds what reader `w` holds, which began where the groups `g₀` and `outer₀` were
open for `r`. -/
structure Reading.Beside (g₀ : OpenGroup) (outer₀ : List OpenGroup) (r w : Reading) : Prop where
  flags : r.flags = w.flags
  groups : OpenGroup.Within g₀ outer₀ (r.group :: r.outer) (w.group :: w.outer)

namespace OpenGroup.Within
variable {g₀ g : OpenGroup} {outer₀ gs outer : List OpenGroup}

/-- The innermost group has gained what the group beside it holds, and may gain more. Only the
outermost one may have held something before. -/
theorem exists_gains (h : Within g₀ outer₀ gs (g :: outer)) :
    ∃ g₁ g' outer', gs = g' :: outer' ∧ g₁.Gains g' g ∧ (g₁.items = [] ∨ outer = [] ∧ g₁ = g₀) ∧
      ∀ h' h : OpenGroup, h.outside = g.outside → h.number? = g.number? → g₁.Gains h' h →
        Within g₀ outer₀ (h' :: outer') (h :: outer) := by
  cases h with
  | @base g' _ h =>
    exact ⟨g₀, g', outer₀, rfl, h, .inr ⟨rfl, rfl⟩, fun h' h _ _ hgains => .base hgains⟩
  | @inner g' _ gs' _ number? hnumber h hgs =>
    refine ⟨_, g', gs', rfl, h, .inl rfl, fun h' h houtside hnumber' hgains => ?_⟩
    rw [← houtside] at hgains
    exact .inner (hnumber' ▸ hnumber) hgains hgs

/-- The innermost group closes. -/
theorem close {p : OpenGroup} (h : Within g₀ outer₀ gs (g :: p :: outer)) :
    ∃ g' p' outer', gs = g' :: p' :: outer' ∧ g'.outside = g.outside ∧
      Unnumbered g'.number? g.number? ∧ g'.contents.Anonymized g.contents ∧
      ∀ i' i : Item, i'.Anonymized i →
        Within g₀ outer₀ (p'.add i' :: outer') (p.add i :: outer) := by
  cases h with
  | @inner g' _ gs' _ number? hnumber h hgs =>
    obtain ⟨g₁, p', outer', rfl, hgains, -, hgs⟩ := hgs.exists_gains
    exact ⟨g', p', outer', rfl, h.outside, h.number? ▸ hnumber, h.contents rfl rfl,
      fun i' i hi => hgs _ _ rfl rfl (hgains.add hi)⟩

/-- Only the outermost group is open. -/
theorem gains {g' : OpenGroup} (h : Within g₀ outer₀ (g' :: gs) [g]) :
    g₀.Gains g' g ∧ gs = outer₀ := by
  cases h with
  | base h => exact ⟨h, rfl⟩
  | inner _ _ h => cases h

end OpenGroup.Within

namespace Reading.Beside
variable {g₀ : OpenGroup} {outer₀ : List OpenGroup} {r r' w w' : Reading} {rest rest' : List Char}

theorem closeGroup? (h : Beside g₀ outer₀ r w) (hw : w.closeGroup? rest = some w')
    (hr : r.closeGroup? rest' = some r') : Beside g₀ outer₀ r' w' := by
  rw [Reading.closeGroup?.eq_def] at hw hr
  cases hwouter : w.outer with
  | nil =>
    rw [hwouter] at hw
    cases hw
  | cons p outer =>
    have hgroups := h.groups
    rw [hwouter] at hw hgroups
    obtain ⟨g', p', outer', heq, houtside, hnumber, hcontents, hgroups⟩ := hgroups.close
    obtain ⟨rfl, hrouter⟩ := List.cons.inj heq
    rw [hrouter] at hr
    cases hw
    cases hr
    refine ⟨houtside, hgroups _ _ ⟨?_, rfl⟩⟩
    dsimp only
    generalize r.group.number? = number?' at hnumber
    generalize w.group.number? = number? at hnumber
    cases hnumber with
    | flagged => exact hcontents.expr
    | anonymous i => exact hcontents.expr.anonymous i
    | named i' i name => exact hcontents.expr.group i' i name

theorem again? (h : Beside g₀ outer₀ r w) {min : Nat} {max : Option Nat} {lazyMark : Bool}
    (hle : ∀ m ∈ max, min ≤ m) (hw : w.again? min max lazyMark rest = some w')
    (hr : r.again? min max lazyMark rest' = some r') : Beside g₀ outer₀ r' w' := by
  obtain ⟨g₁, g', outer', heq, hgains, -, hgroups⟩ := h.groups.exists_gains
  obtain ⟨rfl, rfl⟩ := List.cons.inj heq
  rw [Reading.again?.eq_def] at hw hr
  cases hitems : w.group.items with
  | nil =>
    rw [hitems] at hw
    cases hw
  | cons i is =>
    obtain ⟨i', is', hitems', -, hgains⟩ :=
      hgains.again hitems hle (lazyMark == w.flags.swapGreed)
    rw [hitems] at hw
    rw [hitems', h.flags] at hr
    dsimp only at hw hr
    split at hw
    · cases hw
    split at hr
    · cases hr
    cases hw
    cases hr
    exact ⟨rfl, hgroups _ _ rfl rfl hgains⟩

/-- An element is taken beside itself, or in place of a group without a name. A branch may end in
the outermost group only if nothing stood there before. -/
theorem take? (h : Beside g₀ outer₀ r w) {e : Element} (hitem : ∀ i, e = .item i → i.Anonymized i)
    (hle : ∀ min max lazyMark, e = .repeated min max lazyMark → ∀ m ∈ max, min ≤ m)
    (hbranch : e = .alternate → w.outer = [] → g₀.items = [])
    (hw : w.take? rest e = some w') (hr : r.take? rest' (e.anonymous r.flags) = some r') :
    Beside g₀ outer₀ r' w' := by
  obtain ⟨g₁, g', outer', heq, hgains, hfirst, hgroups⟩ := h.groups.exists_gains
  obtain ⟨rfl, rfl⟩ := List.cons.inj heq
  have hempty : Item.Anonymized ⟨.empty, 0, false⟩ ⟨.empty, 0, false⟩ := ⟨.empty, rfl⟩
  cases e with
  | item i =>
    cases hw
    cases hr
    exact ⟨h.flags, hgroups _ _ rfl rfl (hgains.add (hitem i rfl))⟩
  | numbered name =>
    rw [Reading.take?] at hw
    split at hw
    · cases hw
    cases hw
    cases name with
    | none =>
      cases hr
      exact ⟨h.flags, .inner (.anonymous _) (.opened h.flags _ _) h.groups⟩
    | some name =>
      have hsame : Element.anonymous r.flags (.numbered (some name)) = .numbered (some name) := rfl
      rw [hsame, Reading.take?] at hr
      split at hr
      · cases hr
      cases hr
      exact ⟨h.flags, .inner (.named _ _ name) (.opened h.flags _ _) h.groups⟩
  | flags f =>
    cases hw
    cases hr
    exact ⟨rfl, hgroups _ _ rfl rfl (hgains.add hempty)⟩
  | flagged f =>
    cases hw
    cases hr
    exact ⟨rfl, .inner .flagged (.opened h.flags _ _) h.groups⟩
  | close => exact h.closeGroup? hw hr
  | alternate =>
    cases hw
    cases hr
    refine ⟨h.flags, hgroups _ _ rfl rfl (hgains.alternate ?_)⟩
    exact hfirst.elim id fun hfirst => hfirst.2 ▸ hbranch rfl hfirst.1
  | repeated min max lazyMark => exact h.again? (hle min max lazyMark rfl) hw hr

end Reading.Beside

end Tinct.Regex
