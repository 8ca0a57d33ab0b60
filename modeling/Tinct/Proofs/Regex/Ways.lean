import Mathlib.Data.List.Basic
import Tinct.Proofs.CharSet
import Tinct.Proofs.Regex.SimpleForm
import Tinct.Regex.Run

/-!
# The ways in which an expression matches

An expression matches a part of a text in one or more ways, which differ in what the named groups
take of it. The functions that build expressions in simple form change nothing about them:

* `Ways`: relations between positions with what is taken in between, put one behind another by
  `Ways.comp`;
* `Expr.ways`: the ways in which an expression matches;
* `Expr.ways_concat`: those of a sequence;
* `Expr.Proper`: expressions whose sets are in order, as the reader builds them;
* `Expr.ways_choice`: those of a choice between proper expressions.
-/

namespace Tinct.Regex

/-- A relation between positions of a text, with what named groups take on the way from one to the
other, in the order in which they close. -/
def Ways : Type := Nat → Nat → List (String × Span) → Prop

namespace Ways
variable {R S : Ways}

@[ext]
theorem ext (h : ∀ i j taken, R i j taken ↔ S i j taken) : R = S :=
  funext fun i => funext fun j => funext fun taken => propext (h i j taken)

/-- Nothing is taken. -/
def silent (R : Nat → Nat → Prop) : Ways := fun i j taken => R i j ∧ taken = []

/-- Nothing is read. -/
def stay : Ways := silent (· = ·)

/-- One way behind another. -/
def comp (R S : Ways) : Ways := fun i j taken =>
  ∃ k front behind, R i k front ∧ S k j behind ∧ front ++ behind = taken

/-- Ways behind one another. -/
def row (Rs : List Ways) : Ways := Rs.foldr comp stay

/-- The same ways some number of times. -/
def times (R : Ways) (n : Nat) : Ways := row (List.replicate n R)

/-- A group of some name takes what lies between the ends. -/
def record (name : Option String) (R : Ways) : Ways := fun i j taken =>
  ∃ inside, R i j inside ∧ inside ++ name.toList.map (·, ⟨i, j⟩) = taken

theorem stay_comp (R : Ways) : stay.comp R = R := by
  ext i j taken
  constructor
  · rintro ⟨_, _, behind, ⟨rfl, rfl⟩, h, rfl⟩
    exact h
  · exact fun h => ⟨i, [], taken, ⟨rfl, rfl⟩, h, rfl⟩

theorem comp_stay (R : Ways) : R.comp stay = R := by
  ext i j taken
  constructor
  · rintro ⟨_, front, _, h, ⟨rfl, rfl⟩, rfl⟩
    rwa [List.append_nil]
  · exact fun h => ⟨j, taken, [], h, ⟨rfl, rfl⟩, List.append_nil taken⟩

theorem comp_assoc (R S T : Ways) : (R.comp S).comp T = R.comp (S.comp T) := by
  ext i j taken
  constructor
  · rintro ⟨l, _, cs, ⟨k, as, bs, hR, hS, rfl⟩, hT, rfl⟩
    exact ⟨k, as, bs ++ cs, hR, ⟨l, bs, cs, hS, hT, rfl⟩, (List.append_assoc ..).symm⟩
  · rintro ⟨k, as, _, hR, ⟨l, bs, cs, hS, hT, rfl⟩, rfl⟩
    exact ⟨l, as ++ bs, cs, ⟨k, as, bs, hR, hS, rfl⟩, hT, List.append_assoc ..⟩

theorem row_append (Rs Ss : List Ways) : row (Rs ++ Ss) = (row Rs).comp (row Ss) := by
  induction Rs with
  | nil => exact (stay_comp _).symm
  | cons R Rs ih => exact (congrArg R.comp ih).trans (comp_assoc ..).symm

theorem row_flatten (Rss : List (List Ways)) : row Rss.flatten = row (Rss.map row) := by
  induction Rss with
  | nil => rfl
  | cons Rs Rss ih =>
    rw [List.flatten_cons, row_append, ih]
    rfl

theorem row_singleton (R : Ways) : row [R] = R := comp_stay R

theorem silent_comp (R S : Nat → Nat → Prop) :
    (silent R).comp (silent S) = silent fun i j => ∃ k, R i k ∧ S k j := by
  ext i j taken
  constructor
  · rintro ⟨k, _, _, ⟨hR, rfl⟩, ⟨hS, rfl⟩, rfl⟩
    exact ⟨⟨k, hR, hS⟩, rfl⟩
  · rintro ⟨⟨k, hR, hS⟩, rfl⟩
    exact ⟨k, [], [], ⟨hR, rfl⟩, ⟨hS, rfl⟩, rfl⟩

theorem record_none (R : Ways) : record none R = R := by
  ext i j taken
  simp [record]

end Ways

namespace Expr
variable {t : Text} {i j : Nat} {taken : List (String × Span)}

/-- The characters of a text from `i` to `j` are `cs`. -/
def Reads (t : Text) : List Char → Nat → Nat → Prop
  | [], i, j => i = j
  | c :: cs, i, j => t.after? i = some c ∧ Reads t cs (i + 1) j

/-- The ways in which the expression matches. -/
def ways (t : Text) : Expr → Ways
  | .empty => .stay
  | .literal cs => .silent (Reads t cs)
  | .set s => .silent fun i j => (t.after? i).any s.contains = true ∧ i + 1 = j
  | .look l => .silent fun i j => l.holds t i = true ∧ i = j
  | .group _ name e => (e.ways t).record name
  | .seq a b => (a.ways t).comp (b.ways t)
  | .alt a b => fun i j taken => a.ways t i j taken ∨ b.ways t i j taken
  | .rep e min max _ => fun i j taken =>
    ∃ n, min ≤ n ∧ (∀ m ∈ max, n ≤ m) ∧ (e.ways t).times n i j taken

/-! ## Sequences -/

theorem reads_append (as bs : List Char) (i j : Nat) :
    Reads t (as ++ bs) i j ↔ ∃ k, Reads t as i k ∧ Reads t bs k j := by
  induction as generalizing i with
  | nil => exact ⟨fun h => ⟨i, rfl, h⟩, fun ⟨_, hk, h⟩ => hk ▸ h⟩
  | cons a as ih =>
    simp only [List.cons_append, Reads, ih]
    grind

theorem ways_literal_append (as bs : List Char) :
    (literal (as ++ bs)).ways t = ((literal as).ways t).comp ((literal bs).ways t) := by
  simp only [ways, Ways.silent_comp, ← reads_append]

theorem ways_seqs (es : List Expr) : (seqs es).ways t = .row (es.map (ways t)) := by
  induction es with
  | nil => rfl
  | cons e es ih =>
    cases es with
    | nil => exact (Ways.row_singleton _).symm
    | cons e' es => exact congrArg (e.ways t).comp ih

theorem row_factors (e : Expr) : .row (e.factors.map (ways t)) = e.ways t := by
  induction e with
  | empty => rfl
  | seq a b _ ih => exact congrArg (a.ways t).comp ih
  | _ => exact Ways.row_singleton _

theorem row_flatMap_factors (es : List Expr) :
    Ways.row ((es.flatMap factors).map (ways t)) = .row (es.map (ways t)) := by
  induction es with
  | nil => rfl
  | cons e es ih =>
    rw [List.flatMap_cons, List.map_append, Ways.row_append, row_factors, ih]
    rfl

/-- Joining literals leaves the ways. -/
theorem row_joinLiterals (es : List Expr) :
    Ways.row ((joinLiterals es).map (ways t)) = .row (es.map (ways t)) := by
  induction es with
  | nil => rfl
  | cons e es ih =>
    have hcons : Ways.row ((e :: joinLiterals es).map (ways t)) = .row ((e :: es).map (ways t)) :=
      congrArg (e.ways t).comp ih
    rw [← hcons]
    cases e with
    | literal cs =>
      obtain ⟨ds, es', hes, hjoin⟩ | ⟨-, hjoin⟩ := joinLiterals_literal cs es
      · rw [hjoin, hes]
        refine Eq.trans ?_ (Ways.comp_assoc ..)
        exact congrArg (Ways.comp · _) (ways_literal_append cs ds)
      · rw [hjoin]
    | _ => rfl

/-- A sequence matches by way of its elements, one behind another. -/
theorem ways_concat (es : List Expr) : (concat es).ways t = .row (es.map (ways t)) := by
  rw [concat, ways_seqs, row_joinLiterals, row_flatMap_factors]

/-! ## Proper expressions -/

/-- Every set in the expression is in order and holds no surrogate alone, and no repetition has its
bounds the wrong way round. -/
def Proper : Expr → Prop
  | .set s => CharSet.Sorted s.ranges ∧ ∀ n, s.only? = some n → n.isValidChar
  | .group _ _ e => e.Proper
  | .rep e min max _ => e.Proper ∧ ∀ m ∈ max, min ≤ m
  | .seq a b | .alt a b => a.Proper ∧ b.Proper
  | _ => True

theorem proper_factors {e : Expr} (h : e.Proper) : ∀ f ∈ e.factors, f.Proper := by
  induction e with
  | empty => exact nofun
  | seq a b _ ih => exact List.forall_mem_cons.mpr ⟨h.1, ih h.2⟩
  | _ => exact List.forall_mem_singleton.mpr h

theorem proper_branches {e : Expr} (h : e.Proper) : ∀ b ∈ e.branches, b.Proper := by
  induction e with
  | alt a b _ ih => exact List.forall_mem_cons.mpr ⟨h.1, ih h.2⟩
  | _ => exact List.forall_mem_singleton.mpr h

theorem proper_flatMap_branches {es : List Expr} (h : ∀ e ∈ es, e.Proper) :
    ∀ b ∈ es.flatMap branches, b.Proper := by
  intro b hb
  obtain ⟨e, he, hbe⟩ := List.mem_flatMap.mp hb
  exact proper_branches (h e he) b hbe

theorem proper_seqs {es : List Expr} (h : ∀ e ∈ es, e.Proper) : (seqs es).Proper := by
  induction es with
  | nil => exact trivial
  | cons e es ih =>
    obtain ⟨he, hes⟩ := List.forall_mem_cons.mp h
    cases es with
    | nil => exact he
    | cons e' es => exact ⟨he, ih hes⟩

theorem proper_of_isLiteral {e : Expr} (h : e.isLiteral = true) : e.Proper := by
  cases e with
  | literal cs => exact trivial
  | _ => cases h

theorem proper_concat {es : List Expr} (h : ∀ e ∈ es, e.Proper) : (concat es).Proper := by
  refine proper_seqs fun f hf => ?_
  obtain hf | hf := mem_joinLiterals hf
  · obtain ⟨e, he, hfe⟩ := List.mem_flatMap.mp hf
    exact proper_factors (h e he) f hfe
  · exact proper_of_isLiteral hf

/-! ### Sets -/

/-- A set in order is as well a literal if it has one member. -/
theorem proper_ofSet {s : CharSet} (h : CharSet.Sorted s.ranges) : (ofSet s).Proper := by
  rw [ofSet]
  split
  · exact trivial
  · rename_i hnone
    exact ⟨h, fun n hn => by rw [hnone] at hn; cases hn⟩

theorem proper_set_of_contains {s : CharSet} (h : CharSet.Sorted s.ranges) {c : Char}
    (hc : s.contains c = true) : (Expr.set s).Proper := by
  refine ⟨h, fun n hn => ?_⟩
  rw [← (CharSet.contains_of_only? hn c).mp hc]
  exact c.valid

theorem ways_ofSet {s : CharSet} (h : (Expr.set s).Proper) :
    (ofSet s).ways t = (Expr.set s).ways t := by
  rw [ofSet]
  split
  · rename_i n hn
    have hcode : (Char.ofNat n).toNat = n := by
      rw [Char.ofNat, dif_pos (h.2 n hn)]
      rfl
    have hchar (d : Char) : s.contains d = true ↔ d = Char.ofNat n := by
      rw [CharSet.contains_of_only? hn, ← Char.toNat_inj, hcode]
    refine congrArg Ways.silent (funext fun i => funext fun j => propext ?_)
    simp only [Reads]
    cases t.after? i with
    | none => simp
    | some d => simp [hchar]
  · rfl

/-- An expression that is a set matches the characters of the set. -/
def IsSet (e : Expr) (s : CharSet) : Prop :=
  (Expr.set s).Proper ∧ ∀ t, e.ways t = (Expr.set s).ways t

theorem isSet_of_set? {e : Expr} {s : CharSet} (h : e.set? = some s) (he : e.Proper) :
    e.IsSet s := by
  unfold set? at h
  split at h
  · cases h
    exact ⟨he, fun t => rfl⟩
  · cases h

theorem isSet_of_char? {e : Expr} {s : CharSet} (h : e.char? = some s) : e.IsSet s := by
  unfold char? at h
  split at h
  · rename_i c
    cases h
    have hc : (CharSet.singleton c).contains c = true := CharSet.contains_singleton.mpr rfl
    refine ⟨proper_set_of_contains (CharSet.sorted_singleton c) hc, fun t => ?_⟩
    refine congrArg Ways.silent (funext fun i => funext fun j => propext ?_)
    simp only [Reads]
    cases t.after? i with
    | none => simp
    | some d => simp [CharSet.contains_singleton]
  · cases h

theorem forall₂_of_mapM {α β : Type} {f : α → Option β} {R : α → β → Prop} {as : List α}
    {bs : List β} (h : as.mapM f = some bs) (hR : ∀ a ∈ as, ∀ b, f a = some b → R a b) :
    List.Forall₂ R as bs := by
  induction as generalizing bs with
  | nil => cases h; exact .nil
  | cons a as ih =>
    rw [List.mapM_cons] at h
    obtain ⟨b, ha, h⟩ := Option.bind_eq_some_iff.mp h
    obtain ⟨bs', has, h⟩ := Option.bind_eq_some_iff.mp h
    cases h
    exact .cons (hR a (.head _) b ha) (ih has fun a' ha' => hR a' (.tail _ ha'))

/-- Branches of which each is a single character, or each a set. -/
theorem isSet_of_mapM {bs : List Expr} {ss : List CharSet} (h : ∀ b ∈ bs, b.Proper)
    (hss : (bs.mapM char?).or (bs.mapM set?) = some ss) : List.Forall₂ IsSet bs ss := by
  obtain hchars | ⟨-, hsets⟩ := Option.or_eq_some_iff.mp hss
  · exact forall₂_of_mapM hchars fun b _ s hs => isSet_of_char? hs
  · exact forall₂_of_mapM hsets fun b hb s hs => isSet_of_set? hs (h b hb)

theorem proper_of_isSet {bs : List Expr} {ss : List CharSet} (h : List.Forall₂ IsSet bs ss) :
    ∀ s ∈ ss, (Expr.set s).Proper := by
  induction h with
  | nil => exact nofun
  | cons hb _ ih => exact List.forall_mem_cons.mpr ⟨hb.1, ih⟩

theorem proper_unions {ss : List CharSet} (h : ∀ s ∈ ss, (Expr.set s).Proper) :
    (Expr.set (CharSet.unions ss)).Proper := by
  have hsorted : ∀ s ∈ ss, CharSet.Sorted s.ranges := fun s hs => (h s hs).1
  have hunion := CharSet.sorted_unions hsorted
  refine ⟨hunion, fun n hn => ?_⟩
  -- the one member of the union is the one member of some of the sets
  have hmem := (CharSet.only?_eq_some_iff hunion).mp hn
  simp only [CharSet.has_unions hsorted] at hmem
  obtain ⟨s, hs, hsn⟩ := (hmem n).mpr rfl
  refine (h s hs).2 n ((CharSet.only?_eq_some_iff (hsorted s hs)).mpr fun m => ⟨fun hm => ?_, ?_⟩)
  · exact (hmem m).mp ⟨s, hs, hm⟩
  · rintro rfl
    exact hsn

/-- Expressions that are sets match the characters of their union. -/
theorem ways_unions {bs : List Expr} {ss : List CharSet} (h : List.Forall₂ IsSet bs ss) :
    (ofSet (CharSet.unions ss)).ways t i j taken ↔ ∃ b ∈ bs, b.ways t i j taken := by
  rw [ways_ofSet (proper_unions (proper_of_isSet h))]
  have hsorted : ∀ s ∈ ss, CharSet.Sorted s.ranges := fun s hs => (proper_of_isSet h s hs).1
  have hsets : (∃ b ∈ bs, b.ways t i j taken) ↔ ∃ s ∈ ss, (Expr.set s).ways t i j taken := by
    clear hsorted
    induction h with
    | nil => simp
    | cons hb _ ih => simp only [List.exists_mem_cons_iff, hb.2, ih]
  rw [hsets]
  simp only [ways, Ways.silent]
  cases t.after? i with
  | none => simp
  | some d =>
    simp only [Option.any_some, CharSet.contains_unions hsorted]
    grind

/-! ## Choices -/

theorem ways_alt (a b : Expr) : (Expr.alt a b).ways t i j taken ↔
    a.ways t i j taken ∨ b.ways t i j taken := Iff.rfl

theorem not_ways_empty_set : ¬(Expr.set .empty).ways t i j taken := by
  rintro ⟨⟨hchar, -⟩, -⟩
  cases hc : t.after? i with
  | none => rw [hc] at hchar; cases hchar
  | some c => rw [hc] at hchar; cases hchar

theorem ways_alts (es : List Expr) :
    (alts es).ways t i j taken ↔ ∃ e ∈ es, e.ways t i j taken := by
  cases es with
  | nil => exact ⟨fun h => absurd h not_ways_empty_set, fun ⟨_, he, _⟩ => nomatch he⟩
  | cons e es => exact alts_iff (P := (·.ways t i j taken)) ways_alt (List.cons_ne_nil e es)

theorem ways_oneOf {es : List Expr} (h : ∀ e ∈ es, e.Proper) :
    (oneOf es).ways t i j taken ↔ ∃ e ∈ es, e.ways t i j taken := by
  have hbranches := proper_flatMap_branches h
  rw [← exists_flatMap_branches (P := (·.ways t i j taken)) ways_alt]
  obtain ⟨e, hes, hone⟩ | ⟨ss, hss, hone⟩ | hone := oneOf_cases es
  · simp [hone, hes]
  · rw [hone]
    exact ways_unions (isSet_of_mapM hbranches hss)
  · rw [hone]
    exact ways_alts _

theorem proper_alts {es : List Expr} (h : ∀ e ∈ es, e.Proper) : (alts es).Proper := by
  induction es with
  | nil => exact ⟨CharSet.sorted_nil, nofun⟩
  | cons e es ih =>
    obtain ⟨he, hes⟩ := List.forall_mem_cons.mp h
    cases es with
    | nil => exact he
    | cons e' es => exact ⟨he, ih hes⟩

theorem proper_oneOf {es : List Expr} (h : ∀ e ∈ es, e.Proper) : (oneOf es).Proper := by
  have hbranches := proper_flatMap_branches h
  obtain ⟨e, hes, hone⟩ | ⟨ss, hss, hone⟩ | hone := oneOf_cases es
  · rw [hone]
    exact hbranches e (hes ▸ .head _)
  · rw [hone]
    exact proper_ofSet (proper_unions (proper_of_isSet (isSet_of_mapM hbranches hss))).1
  · rw [hone]
    exact proper_alts hbranches

/-- What is behind the elements that proper branches share is proper, and so are these. -/
theorem proper_of_map_factors {bs start : List Expr} {rests : List (List Expr)}
    (hbs : ∀ b ∈ bs, b.Proper) (h : bs.map factors = rests.map (start ++ ·)) {rest : List Expr}
    (hrest : rest ∈ rests) : (∀ f ∈ start, f.Proper) ∧ ∀ f ∈ rest, f.Proper := by
  obtain ⟨b, hb, hfactors⟩ := exists_of_map_factors h hrest
  exact List.forall_mem_append.mp (hfactors ▸ proper_factors (hbs b hb))

/-- A choice matches by way of any of its branches, whether these share elements or not. -/
theorem ways_choice {es : List Expr} (h : ∀ e ∈ es, e.Proper) :
    (choice es).ways t i j taken ↔ ∃ e ∈ es, e.ways t i j taken := by
  have hbranches := proper_flatMap_branches h
  have hflatMap := exists_flatMap_branches (P := (·.ways t i j taken)) ways_alt es
  obtain hchoice | ⟨start, rests, -, hfactors, hchoice⟩ := choice_cases es
  · rw [hchoice, ways_oneOf hbranches, hflatMap]
  · have hproper : ∀ e ∈ rests.map concat, e.Proper := List.forall_mem_map.mpr fun rest hrest =>
      proper_concat (proper_of_map_factors hbranches hfactors hrest).2
    have hrows : (∃ b ∈ es.flatMap branches, b.ways t i j taken) ↔
        ∃ rest ∈ rests, (Ways.row ((start ++ rest).map (ways t))) i j taken := by
      trans ∃ fs ∈ (es.flatMap branches).map factors, (Ways.row (fs.map (ways t))) i j taken
      · simp only [List.mem_map, exists_exists_and_eq_and, row_factors]
      · simp only [hfactors, List.mem_map, exists_exists_and_eq_and]
    rw [← hflatMap, hrows, hchoice, ways_concat, List.map_append,
      Ways.row_append, List.map_singleton, Ways.row_singleton]
    simp only [List.map_append, Ways.row_append]
    constructor
    · rintro ⟨k, front, behind, hstart, hone, rfl⟩
      obtain ⟨e, he, hbehind⟩ := (ways_oneOf hproper).mp hone
      obtain ⟨rest, hrest, rfl⟩ := List.mem_map.mp he
      exact ⟨rest, hrest, k, front, behind, hstart, ways_concat rest ▸ hbehind, rfl⟩
    · rintro ⟨rest, hrest, k, front, behind, hstart, hbehind, rfl⟩
      refine ⟨k, front, behind, hstart, (ways_oneOf hproper).mpr ?_, rfl⟩
      exact ⟨concat rest, List.mem_map_of_mem hrest, (ways_concat rest).symm ▸ hbehind⟩

theorem proper_choice {es : List Expr} (h : ∀ e ∈ es, e.Proper) : (choice es).Proper := by
  have hbranches := proper_flatMap_branches h
  obtain hchoice | ⟨start, rests, hne, hfactors, hchoice⟩ := choice_cases es
  · rw [hchoice]
    exact proper_oneOf hbranches
  · obtain ⟨rest, hrest⟩ := List.exists_mem_of_ne_nil rests hne
    rw [hchoice]
    refine proper_concat (List.forall_mem_append.mpr ⟨?_, List.forall_mem_singleton.mpr ?_⟩)
    · exact (proper_of_map_factors hbranches hfactors hrest).1
    · exact proper_oneOf (List.forall_mem_map.mpr fun rest hrest =>
        proper_concat (proper_of_map_factors hbranches hfactors hrest).2)

end Expr
end Tinct.Regex
