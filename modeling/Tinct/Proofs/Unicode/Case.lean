import Tinct.Proofs.CharSet
import Tinct.Unicode.Case

/-!
# Letter case

Patterns that ignore case and keywords that ignore case follow mappings of their own:

* `Unicode.contains_foldCase`: the characters that a pattern takes for another;
* `Unicode.foldRuns_eq`: among ASCII characters these differ in the case of a letter;
* `Unicode.lowerFrom_ascii`: and there the lower-case form of a text changes nothing else.
-/

namespace Tinct.Unicode
open CharSet (Sorted)

namespace CaseRun
variable {run : CaseRun} {r x : CharRange} {m n : Nat}

theorem map?_eq_some : run.map? n = some m ↔
    (run.lo ≤ n ∧ n ≤ run.hi ∧ (n - run.lo) % run.stride = 0) ∧ n - run.lo + run.target = m := by
  rw [map?]
  split <;> simp [*]

/-- Where a run takes a range is not empty. -/
theorem proper_of_mem_image (hx : x ∈ run.image r) : x.lo ≤ x.hi := by
  unfold image at hx
  dsimp only at hx
  split at hx
  · cases hx
  split at hx
  · cases List.mem_singleton.mp hx
    dsimp only
    omega
  · obtain ⟨i, -, hi⟩ := List.mem_filterMap.mp hx
    obtain ⟨n, -, rfl⟩ := Option.map_eq_some_iff.mp hi
    exact Nat.le_refl n

/-- A run takes a range to where it takes the members. -/
theorem exists_mem_image : (∃ x ∈ run.image r, x.Has m) ↔ ∃ n, r.Has n ∧ run.map? n = some m := by
  unfold image
  dsimp only
  simp only [map?_eq_some]
  split
  · constructor
    · rintro ⟨x, hx, -⟩
      cases hx
    · rintro ⟨n, ⟨hlo, hhi⟩, ⟨hn, hn', -⟩, -⟩
      omega
  split
  · rename_i hstride
    simp only [List.mem_singleton, exists_eq_left, CharRange.Has, hstride, Nat.mod_one, and_true]
    constructor
    · intro hm
      exact ⟨m - run.target + run.lo, by omega⟩
    · rintro ⟨n, hn⟩
      omega
  · simp only [List.mem_filterMap, List.mem_range, Option.map_eq_some_iff, map?_eq_some]
    constructor
    · rintro ⟨x, ⟨i, hi, k, ⟨hmap, rfl⟩, rfl⟩, hlo, hhi⟩
      dsimp only at hlo hhi
      exact ⟨max run.lo r.lo + i, ⟨by omega, by omega⟩, hmap, by omega⟩
    · rintro ⟨n, ⟨hlo, hhi⟩, hmap, rfl⟩
      have hn : max run.lo r.lo + (n - max run.lo r.lo) = n := by omega
      refine ⟨_, ⟨n - max run.lo r.lo, by omega, _, ⟨hn.symm ▸ hmap, rfl⟩, rfl⟩, ?_⟩
      rw [hn]
      exact ⟨Nat.le_refl _, Nat.le_refl _⟩

end CaseRun

/-! ## Simple case folding -/

section fold
variable {s : CharSet} {c d : Char}

theorem proper_of_mem_images {runs : List CaseRun} :
    ∀ x ∈ runs.flatMap fun run => s.ranges.flatMap run.image, x.lo ≤ x.hi := by
  intro x hx
  obtain ⟨run, -, hx⟩ := List.mem_flatMap.mp hx
  obtain ⟨r, -, hx⟩ := List.mem_flatMap.mp hx
  exact CaseRun.proper_of_mem_image hx

theorem sorted_images (runs : List CaseRun) (s : CharSet) : Sorted (images runs s).ranges :=
  CharSet.sorted_ofRanges proper_of_mem_images

/-- Runs take the members of a set to the members of its image. -/
theorem has_images {runs : List CaseRun} {m : Nat} :
    (images runs s).Has m ↔ ∃ run ∈ runs, ∃ n, s.Has n ∧ run.map? n = some m := by
  have himage (run : CaseRun) : (∃ x ∈ s.ranges.flatMap run.image, x.Has m) ↔
      ∃ n, s.Has n ∧ run.map? n = some m := by
    simp only [List.mem_flatMap]
    constructor
    · rintro ⟨x, ⟨r, hr, hx⟩, hm⟩
      obtain ⟨n, hn, hmap⟩ := CaseRun.exists_mem_image.mp ⟨x, hx, hm⟩
      exact ⟨n, ⟨r, hr, hn⟩, hmap⟩
    · rintro ⟨n, ⟨r, hr, hn⟩, hmap⟩
      obtain ⟨x, hx, hm⟩ := CaseRun.exists_mem_image.mpr ⟨n, hn, hmap⟩
      exact ⟨x, ⟨r, hr, hx⟩, hm⟩
  rw [images, CharSet.has_ofRanges proper_of_mem_images]
  constructor
  · rintro ⟨x, hx, hm⟩
    obtain ⟨run, hrun, hx⟩ := List.mem_flatMap.mp hx
    exact ⟨run, hrun, (himage run).mp ⟨x, hx, hm⟩⟩
  · rintro ⟨run, hrun, h⟩
    obtain ⟨x, hx, hm⟩ := (himage run).mpr h
    exact ⟨x, List.mem_flatMap.mpr ⟨run, hrun, hx⟩, hm⟩

theorem sorted_foldCase (hs : Sorted s.ranges) : Sorted (foldCase s).ranges :=
  CharSet.sorted_union (CharSet.sorted_union hs (sorted_images _ _)) (sorted_images _ _)

/-- A code point folds to another one or stays as it is. -/
def FoldsTo (m n : Nat) : Prop := n = m ∨ ∃ run ∈ foldRuns, run.map? m = some n

/-- The characters that differ from members only by case have come to them by folding a member and
going back. -/
theorem contains_foldCase (hs : Sorted s.ranges) : (foldCase s).contains c = true ↔
    ∃ m n, s.Has m ∧ FoldsTo m n ∧
      (c.toNat = n ∨ ∃ run ∈ foldRuns, run.inverse.map? n = some c.toNat) := by
  have hfolded := CharSet.sorted_union hs (sorted_images foldRuns s)
  have hhas (n : Nat) : (s.union (images foldRuns s)).Has n ↔ ∃ m, s.Has m ∧ FoldsTo m n := by
    rw [CharSet.has_union hs (sorted_images _ _), has_images]
    unfold FoldsTo
    grind
  rw [CharSet.contains_iff (sorted_foldCase hs), foldCase, CharSet.has_union hfolded
    (sorted_images _ _), has_images, hhas]
  simp only [hhas, List.mem_map, exists_exists_and_eq_and]
  grind

end fold

/-! ## ASCII characters -/

/-- No run of a table starts in front of the first gap. -/
theorem CaseRun.le_lo_of_mem_unpack {start : Nat} {ns : List Nat} {run : CaseRun}
    (h : run ∈ unpack start ns) : start + ns.headD 0 ≤ run.lo := by
  fun_induction unpack start ns with
  | case1 start gap more skip target ns ih =>
    cases h with
    | head => exact Nat.le_refl _
    | tail _ h => exact Nat.le_trans (Nat.le_add_right (start + gap) _) (ih h)
  | case2 => cases h

theorem exists_unpackNumbers {line : String} {cs : List Char} (h : line.toList = '4' :: 'M' :: cs)
    (lines : List String) :
    ∃ ns, CharSet.unpackNumbers 0 (String.join (line :: lines)).toList = 116 :: ns := by
  rw [String.toList_join, List.flatMap_cons, h]
  exact ⟨_, rfl⟩

/-- The first run is that of the ASCII letters, and there is a gap behind it. -/
theorem foldRuns_eq :
    ∃ ns, foldRuns = ⟨0x41, 0x5A, 1, 0x61⟩ :: CaseRun.unpack 0x41 (116 :: ns) := by
  obtain ⟨ns, hns⟩ := exists_unpackNumbers String.toList_ofList _
  exact ⟨ns, congrArg (List.cons _) (congrArg (CaseRun.unpack 0x41) hns)⟩

theorem eq_of_mem_foldRuns {run : CaseRun} (h : run ∈ foldRuns) (hlo : run.lo < 0x80) :
    run = ⟨0x41, 0x5A, 1, 0x61⟩ := by
  obtain ⟨ns, hns⟩ := foldRuns_eq
  rw [hns] at h
  cases h with
  | head => rfl
  | tail _ h =>
    have := CaseRun.le_lo_of_mem_unpack h
    rw [List.headD_cons] at this
    omega

theorem toNat_toLower {c : Char} (h : c.toNat < 0x80) :
    c.toLower.toNat = if 0x41 ≤ c.toNat ∧ c.toNat ≤ 0x5A then c.toNat + 0x20 else c.toNat := by
  have hall : ∀ n < 0x80, (Char.ofNat n).toLower.toNat =
      if 0x41 ≤ n ∧ n ≤ 0x5A then n + 0x20 else n := by decide
  rw [← hall c.toNat h, Char.ofNat_toNat]

/-- ASCII characters with the same simple case folding have the same lower case. -/
theorem toLower_eq_of_contains {c d : Char} (hc : c.toNat < 0x80) (hd : d.toNat < 0x80)
    (h : (foldCase (.singleton c)).contains d = true) : d.toLower = c.toLower := by
  obtain ⟨m, n, hm, hfold, hback⟩ := (contains_foldCase (CharSet.sorted_singleton c)).mp h
  rw [CharSet.has_singleton] at hm
  subst hm
  have hfold : n = c.toNat ∨ 0x41 ≤ c.toNat ∧ c.toNat ≤ 0x5A ∧ n = c.toNat + 0x20 := by
    refine hfold.imp_right fun ⟨run, hrun, hmap⟩ => ?_
    obtain ⟨⟨hlo, hhi, -⟩, htarget⟩ := CaseRun.map?_eq_some.mp hmap
    cases eq_of_mem_foldRuns hrun (by omega)
    dsimp only at hlo hhi htarget
    omega
  have hback : d.toNat = n ∨ 0x41 ≤ d.toNat ∧ d.toNat ≤ 0x5A ∧ n = d.toNat + 0x20 := by
    refine hback.imp_right fun ⟨run, hrun, hmap⟩ => ?_
    obtain ⟨⟨hlo, hhi, -⟩, htarget⟩ := CaseRun.map?_eq_some.mp hmap
    dsimp only [CaseRun.inverse] at hlo hhi htarget
    cases eq_of_mem_foldRuns hrun (by omega)
    dsimp only at hlo hhi htarget
    omega
  rw [← Char.toNat_inj, toNat_toLower hd, toNat_toLower hc]
  split <;> split <;> omega

theorem lowerFrom_ascii {cs : List Char} (h : ∀ c ∈ cs, c.toNat < 0x80) (before : List Char) :
    lowerFrom before cs = cs.map Char.toLower := by
  induction cs generalizing before with
  | nil => rfl
  | cons c cs ih =>
    obtain ⟨hc, hcs⟩ := List.forall_mem_cons.mp h
    have hsigma : c ≠ 'Σ' := by
      rintro rfl
      exact absurd hc (by decide)
    have hdotted : c ≠ 'İ' := by
      rintro rfl
      exact absurd hc (by decide)
    rw [lowerFrom, ih hcs, if_neg hsigma, lowerChar, if_neg hdotted, if_pos hc]
    rfl

/-- The lower-case form of an ASCII text is that of its letters. -/
theorem lowercase_ascii {s : String} (h : ∀ c ∈ s.toList, c.toNat < 0x80) :
    lowercase s = .ofList (s.toList.map Char.toLower) := by
  rw [lowercase, lowerFrom_ascii h]

end Tinct.Unicode
