import Mathlib.Data.List.Basic
import Tinct.CharSet

/-!
# Members of sets of characters

What the operations on sets do to their members, as long as the ranges stand in order:

* `CharSet.Sorted`: ranges in order, none of which is empty;
* `CharSet.Has`, `CharSet.contains_iff`: looking no further than the first range past a code point
  finds it;
* `CharSet.contains_union`, `CharSet.contains_unions`: the members of a union;
* `CharSet.has_ofRanges`: those of a list of ranges in any order;
* `CharSet.sorted_compl`, `CharSet.sorted_inter`, `CharSet.sorted_others`: the ranges of these sets
  stand in order too;
* `CharSet.sorted_unpack`: and so do those of a packed table.
-/

namespace Tinct

/-- The code point lies in the range. -/
def CharRange.Has (r : CharRange) (n : Nat) : Prop := r.lo ≤ n ∧ n ≤ r.hi

namespace CharSet
variable {rs : List CharRange} {r : CharRange} {n : Nat}

/-- The ranges stand in order, and none of them is empty. -/
structure Sorted (rs : List CharRange) : Prop where
  proper : ∀ r ∈ rs, r.lo ≤ r.hi
  apart : rs.Pairwise (·.hi < ·.lo)

theorem sorted_nil : Sorted [] := ⟨nofun, .nil⟩

theorem sorted_cons : Sorted (r :: rs) ↔ r.lo ≤ r.hi ∧ (∀ s ∈ rs, r.hi < s.lo) ∧ Sorted rs := by
  constructor
  · rintro ⟨hproper, hapart⟩
    obtain ⟨hr, hrs⟩ := List.forall_mem_cons.mp hproper
    obtain ⟨hlt, hapart⟩ := List.pairwise_cons.mp hapart
    exact ⟨hr, hlt, hrs, hapart⟩
  · rintro ⟨hr, hlt, hrs, hapart⟩
    exact ⟨List.forall_mem_cons.mpr ⟨hr, hrs⟩, List.pairwise_cons.mpr ⟨hlt, hapart⟩⟩

/-- Looking no further than the first range past a code point finds it. -/
theorem holds_iff (h : Sorted rs) : holds rs n = true ↔ ∃ r ∈ rs, r.Has n := by
  induction rs with
  | nil => exact ⟨nofun, fun ⟨_, hr, _⟩ => nomatch hr⟩
  | cons r rs ih =>
    obtain ⟨hr, hlt, hrs⟩ := sorted_cons.mp h
    rw [holds]
    split
    · rename_i hn
      refine ⟨nofun, fun ⟨x, hx, hlo, hhi⟩ => ?_⟩
      cases hx with
      | head => omega
      | tail _ hx =>
        have := hlt x hx
        omega
    · split
      · exact ⟨fun _ => ⟨r, .head _, by omega, by omega⟩, fun _ => rfl⟩
      · rename_i hlo hhi
        rw [ih hrs]
        constructor
        · rintro ⟨x, hx, hn⟩
          exact ⟨x, .tail _ hx, hn⟩
        · rintro ⟨x, hx, hn⟩
          cases hx with
          | head => exact absurd hn.2 hhi
          | tail _ hx => exact ⟨x, hx, hn⟩

/-! ## Adding ranges -/

theorem mem_insertRange_has (hr : r.lo ≤ r.hi) (hrs : ∀ s ∈ rs, s.lo ≤ s.hi) :
    (∃ x ∈ insertRange r rs, x.Has n) ↔ r.Has n ∨ ∃ x ∈ rs, x.Has n := by
  fun_induction insertRange r rs with
  | case1 r => simp
  | case2 r s rs hlt => simp
  | case3 r s rs hge hlt ih =>
    rw [List.exists_mem_cons_iff, ih hr fun x hx => hrs x (.tail _ hx), List.exists_mem_cons_iff]
    exact or_left_comm
  | case4 r s rs hge hge' ih =>
    obtain ⟨hs, hrs⟩ := List.forall_mem_cons.mp hrs
    have hmerged : (CharRange.mk (min r.lo s.lo) (max r.hi s.hi)).Has n ↔ r.Has n ∨ s.Has n := by
      simp only [CharRange.Has]
      omega
    rw [ih (by dsimp only; omega) hrs, hmerged, List.exists_mem_cons_iff, or_assoc]

theorem lt_lo_of_mem_insertRange {m : Nat} (hr : m < r.lo) (hrs : ∀ s ∈ rs, m < s.lo)
    {x : CharRange} (hx : x ∈ insertRange r rs) : m < x.lo := by
  fun_induction insertRange r rs with
  | case1 r => exact List.mem_singleton.mp hx ▸ hr
  | case2 r s rs hlt =>
    cases hx with
    | head => exact hr
    | tail _ hx => exact hrs x hx
  | case3 r s rs hge hlt ih =>
    obtain ⟨hs, hrs⟩ := List.forall_mem_cons.mp hrs
    cases hx with
    | head => exact hs
    | tail _ hx => exact ih hr hrs hx
  | case4 r s rs hge hge' ih =>
    obtain ⟨hs, hrs⟩ := List.forall_mem_cons.mp hrs
    exact ih (by dsimp only; omega) hrs hx

theorem sorted_insertRange (hr : r.lo ≤ r.hi) (hrs : Sorted rs) : Sorted (insertRange r rs) := by
  fun_induction insertRange r rs with
  | case1 r => exact sorted_cons.mpr ⟨hr, nofun, sorted_nil⟩
  | case2 r s rs hlt =>
    obtain ⟨hs, hapart, -⟩ := sorted_cons.mp hrs
    refine sorted_cons.mpr ⟨hr, List.forall_mem_cons.mpr ⟨by omega, fun x hx => ?_⟩, hrs⟩
    have := hapart x hx
    omega
  | case3 r s rs hge hlt ih =>
    obtain ⟨hs, hapart, hrs⟩ := sorted_cons.mp hrs
    refine sorted_cons.mpr ⟨hs, fun x hx => ?_, ih hr hrs⟩
    exact lt_lo_of_mem_insertRange (by omega) hapart hx
  | case4 r s rs hge hge' ih =>
    obtain ⟨hs, -, hrs⟩ := sorted_cons.mp hrs
    exact ih (by dsimp only; omega) hrs

theorem foldr_insertRange (rs : List CharRange) {ss : List CharRange} (hss : Sorted ss)
    (hrs : ∀ r ∈ rs, r.lo ≤ r.hi) : Sorted (rs.foldr insertRange ss) ∧
      ((∃ x ∈ rs.foldr insertRange ss, x.Has n) ↔ (∃ x ∈ rs, x.Has n) ∨ ∃ x ∈ ss, x.Has n) := by
  induction rs with
  | nil => exact ⟨hss, by simp⟩
  | cons r rs ih =>
    obtain ⟨hr, hrs⟩ := List.forall_mem_cons.mp hrs
    obtain ⟨hsorted, hmem⟩ := ih hrs
    refine ⟨sorted_insertRange hr hsorted, ?_⟩
    rw [List.foldr_cons, mem_insertRange_has hr hsorted.proper, hmem, List.exists_mem_cons_iff,
      or_assoc]

/-! ## Members -/

/-- The code point is a member. -/
def Has (s : CharSet) (n : Nat) : Prop := ∃ r ∈ s.ranges, r.Has n

theorem contains_iff {s : CharSet} (h : Sorted s.ranges) {c : Char} :
    s.contains c = true ↔ s.Has c.toNat :=
  holds_iff h

theorem sorted_singleton (c : Char) : Sorted (singleton c).ranges :=
  sorted_cons.mpr ⟨Nat.le_refl _, nofun, sorted_nil⟩

theorem has_singleton {c : Char} : (singleton c).Has n ↔ n = c.toNat := by
  constructor
  · rintro ⟨r, hr, hlo, hhi⟩
    cases List.mem_singleton.mp hr
    exact Nat.le_antisymm hhi hlo
  · rintro rfl
    exact ⟨_, .head _, Nat.le_refl _, Nat.le_refl _⟩

theorem contains_singleton {c d : Char} : (singleton c).contains d = true ↔ d = c := by
  rw [contains_iff (sorted_singleton c), has_singleton, Char.toNat_inj]

theorem contains_of_only? {s : CharSet} (h : s.only? = some n) (c : Char) :
    s.contains c = true ↔ c.toNat = n := by
  obtain ⟨rs⟩ := s
  unfold only? at h
  split at h
  · rename_i r hrs
    dsimp only at hrs
    subst hrs
    split at h
    · cases h
      simp only [contains, holds]
      grind
    · cases h
  · cases h

variable {s t : CharSet}

theorem union_eq (s t : CharSet) (hs : Sorted s.ranges) (ht : Sorted t.ranges) :
    Sorted (s.union t).ranges ∧ ∀ n, (s.union t).Has n ↔ s.Has n ∨ t.Has n := by
  obtain ⟨ts⟩ := t
  cases ts with
  | nil => exact ⟨hs, fun n => by simp [union, Has]⟩
  | cons r ts =>
    have hfold (n : Nat) := foldr_insertRange (n := n) s.ranges ht hs.proper
    exact ⟨(hfold 0).1, fun n => (hfold n).2⟩

theorem sorted_union (hs : Sorted s.ranges) (ht : Sorted t.ranges) : Sorted (s.union t).ranges :=
  (union_eq s t hs ht).1

theorem has_union (hs : Sorted s.ranges) (ht : Sorted t.ranges) :
    (s.union t).Has n ↔ s.Has n ∨ t.Has n :=
  (union_eq s t hs ht).2 n

theorem contains_union (hs : Sorted s.ranges) (ht : Sorted t.ranges) (c : Char) :
    (s.union t).contains c = true ↔ s.contains c = true ∨ t.contains c = true := by
  rw [contains_iff (sorted_union hs ht), has_union hs ht, contains_iff hs, contains_iff ht]

theorem sorted_ofRanges (h : ∀ r ∈ rs, r.lo ≤ r.hi) : Sorted (ofRanges rs).ranges :=
  (foldr_insertRange (n := 0) rs sorted_nil h).1

theorem has_ofRanges (h : ∀ r ∈ rs, r.lo ≤ r.hi) : (ofRanges rs).Has n ↔ ∃ r ∈ rs, r.Has n :=
  (foldr_insertRange rs sorted_nil h).2.trans (by simp)

theorem sorted_unions {ss : List CharSet} (h : ∀ s ∈ ss, Sorted s.ranges) :
    Sorted (unions ss).ranges := by
  induction ss with
  | nil => exact sorted_nil
  | cons s ss ih =>
    obtain ⟨hs, hss⟩ := List.forall_mem_cons.mp h
    exact sorted_union hs (ih hss)

theorem has_unions {ss : List CharSet} (h : ∀ s ∈ ss, Sorted s.ranges) :
    (unions ss).Has n ↔ ∃ s ∈ ss, s.Has n := by
  induction ss with
  | nil => exact ⟨fun ⟨_, hr, _⟩ => (nomatch hr), fun ⟨_, hs, _⟩ => nomatch hs⟩
  | cons s ss ih =>
    obtain ⟨hs, hss⟩ := List.forall_mem_cons.mp h
    rw [List.exists_mem_cons_iff, ← ih hss]
    exact has_union hs (sorted_unions hss)

theorem contains_unions {ss : List CharSet} (h : ∀ s ∈ ss, Sorted s.ranges) (c : Char) :
    (unions ss).contains c = true ↔ ∃ s ∈ ss, s.contains c = true := by
  rw [contains_iff (sorted_unions h), has_unions h]
  exact exists_congr fun s => and_congr_right fun hs => (contains_iff (h s hs)).symm

/-- A set of one code point is told from any other. -/
theorem only?_eq_some_iff (hs : Sorted s.ranges) : s.only? = some n ↔ ∀ m, s.Has m ↔ m = n := by
  obtain ⟨rs⟩ := s
  constructor
  · intro h m
    unfold only? at h
    split at h
    · rename_i r hr
      obtain rfl : rs = [r] := hr
      split at h
      · rename_i heq
        obtain rfl := Option.some.inj h
        simp only [Has, List.mem_singleton, exists_eq_left, CharRange.Has]
        omega
      · cases h
    · cases h
  · intro h
    cases rs with
    | nil =>
      obtain ⟨r, hr, -⟩ := (h n).mpr rfl
      cases hr
    | cons r rs =>
      obtain ⟨hr, hlt, hrs⟩ := sorted_cons.mp hs
      have hlo : r.lo = n := (h r.lo).mp ⟨r, .head _, Nat.le_refl _, hr⟩
      have hhi : r.hi = n := (h r.hi).mp ⟨r, .head _, hr, Nat.le_refl _⟩
      cases rs with
      | nil => simp [only?, hlo, hhi]
      | cons r' rs =>
        have hr' : r'.lo = n :=
          (h r'.lo).mp ⟨r', .tail _ (.head _), Nat.le_refl _, hrs.proper r' (.head _)⟩
        have := hlt r' (.head _)
        omega

/-! ## Complements -/

theorem sorted_append {as bs : List CharRange} (ha : Sorted as) (hb : Sorted bs)
    (h : ∀ a ∈ as, ∀ b ∈ bs, a.hi < b.lo) : Sorted (as ++ bs) :=
  ⟨List.forall_mem_append.mpr ⟨ha.proper, hb.proper⟩,
    List.pairwise_append.mpr ⟨ha.apart, hb.apart, h⟩⟩

theorem sorted_gaps {start : Nat} (h : Sorted rs) (hstart : ∀ r ∈ rs, start ≤ r.lo) (last : Nat) :
    Sorted (gaps last start rs) ∧ ∀ x ∈ gaps last start rs, start ≤ x.lo := by
  induction rs generalizing start with
  | nil =>
    rw [gaps]
    split
    · rename_i hle
      exact ⟨sorted_cons.mpr ⟨hle, nofun, sorted_nil⟩,
        List.forall_mem_singleton.mpr (Nat.le_refl _)⟩
    · exact ⟨sorted_nil, nofun⟩
  | cons r rs ih =>
    obtain ⟨hr, hlt, hrs⟩ := sorted_cons.mp h
    obtain ⟨hsorted, hle⟩ := ih hrs hlt
    have hfirst := hstart r (.head _)
    rw [gaps]
    split
    · refine ⟨sorted_cons.mpr ⟨?_, fun x hx => ?_, hsorted⟩, List.forall_mem_cons.mpr ⟨?_, ?_⟩⟩
      · dsimp only
        omega
      · have := hle x hx
        dsimp only
        omega
      · exact Nat.le_refl _
      · intro x hx
        have := hle x hx
        omega
    · refine ⟨hsorted, fun x hx => ?_⟩
      have := hle x hx
      omega

/-- What lies between ranges lies in none of them. -/
theorem not_has_of_mem_gaps {start last : Nat} (h : Sorted rs) (hstart : ∀ r ∈ rs, start ≤ r.lo)
    {x : CharRange} (hx : x ∈ gaps last start rs) (hn : x.Has n) : ∀ r ∈ rs, ¬r.Has n := by
  induction rs generalizing start with
  | nil => exact nofun
  | cons r rs ih =>
    obtain ⟨hr, hlt, hrs⟩ := sorted_cons.mp h
    obtain ⟨hlo, hhi⟩ := hn
    have hlater (hx : x ∈ gaps last (r.hi + 1) rs) : ∀ s ∈ r :: rs, ¬s.Has n := by
      have := (sorted_gaps hrs hlt last).2 x hx
      exact List.forall_mem_cons.mpr ⟨fun hn => by have := hn.2; omega, ih hrs hlt hx⟩
    rw [gaps] at hx
    split at hx
    · obtain rfl | hx := List.mem_cons.mp hx
      · dsimp only at hlo hhi
        refine List.forall_mem_cons.mpr ⟨fun hn => ?_, fun s hs hn => ?_⟩
        · have := hn.1
          omega
        · have := hn.1
          have := hlt s hs
          omega
      · exact hlater hx
    · exact hlater hx

theorem sorted_complUpTo (hs : Sorted s.ranges) (last : Nat) :
    Sorted (s.complUpTo last).ranges :=
  (sorted_gaps hs (fun r _ => Nat.zero_le r.lo) last).1

theorem sorted_compl (hs : Sorted s.ranges) : Sorted s.compl.ranges := sorted_complUpTo hs _

theorem not_has_compl (hs : Sorted s.ranges) (hn : s.compl.Has n) : ¬s.Has n := by
  obtain ⟨x, hx, hn⟩ := hn
  rintro ⟨r, hr, hrn⟩
  exact not_has_of_mem_gaps hs (fun r _ => Nat.zero_le r.lo) hx hn r hr hrn

theorem sorted_inter (hs : Sorted s.ranges) (ht : Sorted t.ranges) : Sorted (s.inter t).ranges :=
  sorted_compl (sorted_union (sorted_compl hs) (sorted_compl ht))

theorem sorted_diff (hs : Sorted s.ranges) (ht : Sorted t.ranges) : Sorted (s.diff t).ranges :=
  sorted_inter hs (sorted_compl ht)

theorem sorted_symmDiff (hs : Sorted s.ranges) (ht : Sorted t.ranges) :
    Sorted (s.symmDiff t).ranges :=
  sorted_union (sorted_diff hs ht) (sorted_diff ht hs)

/-- What an intersection has, the complement of either side lacks. -/
theorem not_has_compl_of_inter (hs : Sorted s.ranges) (ht : Sorted t.ranges)
    (hn : (s.inter t).Has n) : ¬t.compl.Has n := fun h =>
  not_has_compl (sorted_union (sorted_compl hs) (sorted_compl ht)) hn
    ((has_union (sorted_compl hs) (sorted_compl ht)).mpr (.inr h))

/-- Ranges stay in order where a function that keeps the order of code points takes them. -/
theorem sorted_map {f : Nat → Nat} (h : Sorted rs)
    (hf : ∀ r ∈ rs, ∀ m, r.lo ≤ m → ∀ n, m < n → f m < f n) :
    Sorted (rs.map fun r => ⟨f r.lo, f r.hi⟩) := by
  refine ⟨List.forall_mem_map.mpr fun r hr => ?_, List.pairwise_map.mpr ?_⟩
  · obtain heq | hlt := Nat.eq_or_lt_of_le (h.proper r hr)
    · exact Nat.le_of_eq (congrArg f heq)
    · exact Nat.le_of_lt (hf r hr r.lo (Nat.le_refl _) r.hi hlt)
  · exact h.apart.imp_of_mem fun hr _ hlt => hf _ hr _ (h.proper _ hr) _ hlt

theorem characters_eq {r : CharRange} (hr : r.lo ≤ r.hi) : Sorted (characters r) ∧
    ∀ x ∈ characters r, r.lo ≤ x.lo ∧ x.hi ≤ r.hi := by
  unfold characters
  constructor
  · refine sorted_append ?_ ?_ ?_
    · split
      · exact sorted_cons.mpr ⟨by dsimp only; omega, nofun, sorted_nil⟩
      · exact sorted_nil
    · split
      · exact sorted_cons.mpr ⟨by dsimp only; omega, nofun, sorted_nil⟩
      · exact sorted_nil
    · intro a ha b hb
      split at ha
      · split at hb
        · cases List.mem_singleton.mp ha
          cases List.mem_singleton.mp hb
          dsimp only
          omega
        · cases hb
      · cases ha
  · refine List.forall_mem_append.mpr ⟨?_, ?_⟩
    · split
      · exact List.forall_mem_singleton.mpr ⟨Nat.le_refl _, Nat.min_le_left ..⟩
      · exact nofun
    · split
      · exact List.forall_mem_singleton.mpr ⟨Nat.le_max_left .., Nat.le_refl _⟩
      · exact nofun

theorem sorted_flatMap_characters (h : Sorted rs) : Sorted (rs.flatMap characters) := by
  induction rs with
  | nil => exact sorted_nil
  | cons r rs ih =>
    obtain ⟨hr, hlt, hrs⟩ := sorted_cons.mp h
    obtain ⟨hsorted, hinside⟩ := characters_eq hr
    refine sorted_append hsorted (ih hrs) fun a ha b hb => ?_
    obtain ⟨s, hs, hb⟩ := List.mem_flatMap.mp hb
    have ha := (hinside a ha).2
    have hb := ((characters_eq (hrs.proper s hs)).2 b hb).1
    have := hlt s hs
    omega

theorem sorted_others (hs : Sorted s.ranges) : Sorted s.others.ranges :=
  sorted_flatMap_characters (sorted_compl hs)

/-! ## Packed tables -/

/-- Whatever its numbers are, a packed table stands in order. -/
theorem sorted_unpackRanges (start : Nat) (ns : List Nat) :
    Sorted (unpackRanges start ns) ∧ ∀ r ∈ unpackRanges start ns, start ≤ r.lo := by
  fun_induction unpackRanges start ns with
  | case1 start gap more ns ih =>
    obtain ⟨hsorted, hle⟩ := ih
    refine ⟨sorted_cons.mpr ⟨Nat.le_add_right .., hle, hsorted⟩, ?_⟩
    refine List.forall_mem_cons.mpr ⟨Nat.le_add_right .., fun r hr => ?_⟩
    have := hle r hr
    omega
  | case2 => exact ⟨sorted_nil, nofun⟩

theorem sorted_unpack (start : Nat) (lines : List String) : Sorted (unpack start lines) :=
  (sorted_unpackRanges start _).1

/-- Ranges in front of where a packed table starts. -/
theorem sorted_append_unpack (front : List CharRange) {start : Nat} (h : Sorted front)
    (hfront : ∀ r ∈ front, r.hi < start) (lines : List String) :
    Sorted (front ++ unpack start lines) :=
  sorted_append h (sorted_unpack start lines) fun a ha b hb =>
    Nat.lt_of_lt_of_le (hfront a ha) ((sorted_unpackRanges start _).2 b hb)

end CharSet
end Tinct
