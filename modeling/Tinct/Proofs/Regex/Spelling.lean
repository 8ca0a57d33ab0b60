import Tinct.Proofs.Regex.Ways

/-!
# What an expression stands for

A regular expression stands for parts of a text, whichever of them a search prefers, and whatever
its groups take of them:

* `Expr.Spells`: the parts of a text that an expression stands for;
* `Expr.spells_iff`: these are what it matches in some way;
* `Expr.spells_concat`: those of a sequence.
-/

namespace Tinct.Regex.Expr
variable {t : Text} {i j : Nat}

/-- A relation between positions holds `n` times in a row. -/
def Times (R : Nat → Nat → Prop) : Nat → Nat → Nat → Prop
  | 0, i, j => i = j
  | n + 1, i, j => ∃ k, R i k ∧ Times R n k j

theorem times_succ_right {R : Nat → Nat → Prop} {n : Nat} :
    Times R (n + 1) i j ↔ ∃ k, Times R n i k ∧ R k j := by
  induction n generalizing i with
  | zero =>
    constructor
    · rintro ⟨k, hR, rfl⟩
      exact ⟨i, rfl, hR⟩
    · rintro ⟨k, rfl, hR⟩
      exact ⟨j, hR, rfl⟩
  | succ n ih =>
    constructor
    · rintro ⟨k, hR, hrest⟩
      obtain ⟨k', hrest, hlast⟩ := ih.mp hrest
      exact ⟨k', ⟨k, hR, hrest⟩, hlast⟩
    · rintro ⟨k', ⟨k, hR, hrest⟩, hlast⟩
      exact ⟨k, hR, ih.mpr ⟨k', hrest, hlast⟩⟩

theorem times_add {R : Nat → Nat → Prop} {m n : Nat} :
    Times R (m + n) i j ↔ ∃ k, Times R m i k ∧ Times R n k j := by
  induction n generalizing j with
  | zero => exact ⟨fun h => ⟨j, h, rfl⟩, fun ⟨_, h, hk⟩ => hk ▸ h⟩
  | succ n ih =>
    rw [← Nat.add_assoc, times_succ_right]
    simp only [times_succ_right, ih]
    grind

/-- The expression stands for the part of a text from `i` to `j`. -/
def Spells (t : Text) : Expr → Nat → Nat → Prop
  | .empty, i, j => i = j
  | .literal cs, i, j => Reads t cs i j
  | .set s, i, j => (t.after? i).any s.contains = true ∧ i + 1 = j
  | .look l, i, j => l.holds t i = true ∧ i = j
  | .group _ _ e, i, j => Spells t e i j
  | .seq a b, i, j => ∃ k, Spells t a i k ∧ Spells t b k j
  | .alt a b, i, j => Spells t a i j ∨ Spells t b i j
  | .rep e min max _, i, j => ∃ n, min ≤ n ∧ (∀ m ∈ max, n ≤ m) ∧ Times (Spells t e) n i j

/-- The expressions in a row stand for the part of a text. -/
def SpellsAll (t : Text) : List Expr → Nat → Nat → Prop
  | [], i, j => i = j
  | e :: es, i, j => ∃ k, e.Spells t i k ∧ SpellsAll t es k j

/-! ## Characters -/

theorem reads_iff_prefix_drop {ds : List Char} :
    Reads t ds i j ↔ j = i + ds.length ∧ ds <+: t.chars.toList.drop i := by
  induction ds generalizing i with
  | nil => simp [Reads, eq_comm]
  | cons d ds ih =>
    rw [Reads, ih, List.length_cons, Text.after?, ← Array.getElem?_toList,
      ← List.head?_drop, ← List.tail_drop]
    cases t.chars.toList.drop i with
    | nil => simp
    | cons c cs =>
      rw [List.head?_cons, List.tail_cons, List.cons_prefix_cons, Option.some.injEq,
        Nat.add_right_comm, Nat.add_assoc]
      constructor
      · rintro ⟨hc, hj, hds⟩
        exact ⟨hj, hc.symm, hds⟩
      · rintro ⟨hj, hc, hds⟩
        exact ⟨hc.symm, hj, hds⟩

/-- The characters between two positions are those that the text reads there. -/
theorem reads_iff_extract {ds : List Char} (hij : i ≤ j) (hj : j ≤ t.size) :
    Reads t ds i j ↔ (t.extract ⟨i, j⟩).toList = ds := by
  have hextract : (t.extract ⟨i, j⟩).toList = (t.chars.toList.drop i).take (j - i) := by
    simp [Text.extract, List.extract_eq_take_drop]
  rw [reads_iff_prefix_drop, hextract, List.prefix_iff_eq_take]
  constructor
  · rintro ⟨rfl, hds⟩
    rw [Nat.add_sub_cancel_left]
    exact hds.symm
  · rintro rfl
    have hsize : t.chars.toList.length = t.size := rfl
    have hlength : ((t.chars.toList.drop i).take (j - i)).length = j - i := by
      rw [List.length_take, List.length_drop]
      omega
    rw [hlength]
    exact ⟨by omega, rfl⟩

/-! ## Ways -/

theorem times_iff {R : Nat → Nat → Prop} {S : Ways}
    (h : ∀ i j, R i j ↔ ∃ taken, S i j taken) (n : Nat) :
    Times R n i j ↔ ∃ taken, S.times n i j taken := by
  induction n generalizing i with
  | zero => exact ⟨fun h => ⟨[], h, rfl⟩, fun ⟨_, h, _⟩ => h⟩
  | succ n ih =>
    constructor
    · rintro ⟨k, hR, hrest⟩
      obtain ⟨front, hS⟩ := (h i k).mp hR
      obtain ⟨behind, hrest⟩ := ih.mp hrest
      exact ⟨front ++ behind, k, front, behind, hS, hrest, rfl⟩
    · rintro ⟨_, k, front, behind, hS, hrest, -⟩
      exact ⟨k, (h i k).mpr ⟨front, hS⟩, ih.mpr ⟨behind, hrest⟩⟩

/-- An expression stands for what it matches in some way. -/
theorem spells_iff {e : Expr} : e.Spells t i j ↔ ∃ taken, e.ways t i j taken := by
  induction e generalizing i j with
  | empty | literal | set | look => exact ⟨fun h => ⟨[], h, rfl⟩, fun ⟨_, h, _⟩ => h⟩
  | group _ name e ih =>
    rw [Spells, ih]
    exact ⟨fun ⟨taken, h⟩ => ⟨_, taken, h, rfl⟩, fun ⟨_, taken, h, _⟩ => ⟨taken, h⟩⟩
  | seq a b iha ihb =>
    simp only [Spells, iha, ihb]
    constructor
    · rintro ⟨k, ⟨front, ha⟩, behind, hb⟩
      exact ⟨front ++ behind, k, front, behind, ha, hb, rfl⟩
    · rintro ⟨_, k, front, behind, ha, hb, -⟩
      exact ⟨k, ⟨front, ha⟩, behind, hb⟩
  | alt a b iha ihb => simp only [Spells, ways, iha, ihb, exists_or]
  | rep e min max greedy ih =>
    simp only [Spells, ways, times_iff fun i j => ih]
    constructor
    · rintro ⟨n, hmin, hmax, taken, h⟩
      exact ⟨taken, n, hmin, hmax, h⟩
    · rintro ⟨taken, n, hmin, hmax, h⟩
      exact ⟨n, hmin, hmax, taken, h⟩

theorem spellsAll_iff (es : List Expr) :
    SpellsAll t es i j ↔ ∃ taken, (Ways.row (es.map (ways t))) i j taken := by
  induction es generalizing i with
  | nil => exact ⟨fun h => ⟨[], h, rfl⟩, fun ⟨_, h, _⟩ => h⟩
  | cons e es ih =>
    simp only [SpellsAll, spells_iff, ih]
    constructor
    · rintro ⟨k, ⟨front, he⟩, behind, hes⟩
      exact ⟨front ++ behind, k, front, behind, he, hes, rfl⟩
    · rintro ⟨_, k, front, behind, he, hes, -⟩
      exact ⟨k, ⟨front, he⟩, behind, hes⟩

/-- A sequence stands for what its elements stand for in a row. -/
theorem spells_concat (es : List Expr) (i j : Nat) :
    (concat es).Spells t i j ↔ SpellsAll t es i j := by
  rw [spells_iff, ways_concat, spellsAll_iff]

/-- A set of one character is as well a literal. -/
theorem spells_ofSet {s : CharSet} (h : (Expr.set s).Proper) (i j : Nat) :
    (ofSet s).Spells t i j ↔ (Expr.set s).Spells t i j := by
  rw [spells_iff, ways_ofSet h, spells_iff]

end Tinct.Regex.Expr
