import Tinct.Proofs.Regex.Element
import Tinct.Proofs.Regex.Extent.Escape
import Tinct.Proofs.Regex.Ways
import Tinct.Proofs.Unicode.Case
import Tinct.Proofs.Unicode.Tables

/-!
# Proper expressions are read

Every set of characters that is read from a source is in order, and no repetition has its bounds
the wrong way round:

* `Atom.Sorted`, `Flags.readEscape?_sorted`: what escapes stand for;
* `OpenClass.Sorted`, `Flags.readClass?_sorted`: classes;
* `Flags.Yields.proper`, `Flags.Yields.le`: the elements of a source;
* `Item.ways_sequence`, `Item.ways_choice`: in what ways such elements match, in a row and as
  branches.
-/

namespace Tinct.Regex
open CharSet (Sorted)

/-! ## Sets by name -/

theorem asciiClass?_sorted {name : String} {s : CharSet} (h : asciiClass? name = some s) :
    Sorted s.ranges := by
  unfold asciiClass? at h
  split at h
  case h_15 => cases h
  all_goals
    cases h
    simp [CharSet.sorted_cons, CharSet.sorted_nil]

theorem sorted_capitals : Sorted [⟨0x41, 0x5A⟩] := by
  simp [CharSet.sorted_cons, CharSet.sorted_nil]

theorem sorted_smalls : Sorted [⟨0x61, 0x7A⟩] := by
  simp [CharSet.sorted_cons, CharSet.sorted_nil]

theorem le_lo_of_mem_inter_smalls {s : CharSet} (hs : Sorted s.ranges) {r : CharRange}
    (hr : r ∈ (s.inter ⟨[⟨0x61, 0x7A⟩]⟩).ranges) : 0x61 ≤ r.lo := by
  have hproper := (CharSet.sorted_inter hs sorted_smalls).proper r hr
  refine Nat.le_of_not_lt fun hlt => ?_
  refine CharSet.not_has_compl_of_inter hs sorted_smalls ⟨r, hr, Nat.le_refl _, hproper⟩ ?_
  exact ⟨⟨0, 0x60⟩, .head _, Nat.zero_le _, Nat.le_of_lt_succ hlt⟩

theorem foldAscii_sorted {s : CharSet} (hs : Sorted s.ranges) : Sorted (foldAscii s).ranges := by
  refine CharSet.sorted_union (CharSet.sorted_union hs ?_) ?_
  · exact CharSet.sorted_map (f := (· + 32)) (CharSet.sorted_inter hs sorted_capitals)
      fun r _ m _ n hlt => Nat.add_lt_add_right hlt 32
  · refine CharSet.sorted_map (f := (· - 32)) (CharSet.sorted_inter hs sorted_smalls)
      fun r hr m hm n hlt => ?_
    have := le_lo_of_mem_inter_smalls hs hr
    omega

namespace Flags
variable {f : Flags} {cs rest : List Char} {s : CharSet} {negated : Bool}

theorem close?_sorted (hs : Sorted s.ranges) {s' : CharSet} (h : f.close? negated s = some s') :
    Sorted s'.ranges := by
  unfold close? at h
  dsimp only at h
  split at h
  · have hfold : Sorted (if f.ignoreCase then Unicode.foldCase s else s).ranges := by
      split
      · exact Unicode.sorted_foldCase hs
      · exact hs
    cases h
    split
    · exact CharSet.sorted_others hfold
    · exact hfold
  · have hfold : Sorted (if f.ignoreCase then foldAscii s else s).ranges := by
      split
      · exact foldAscii_sorted hs
      · exact hs
    obtain ⟨-, h⟩ := Option.ite_none_right_eq_some.mp h
    rw [← Option.some.inj h]
    split
    · exact CharSet.sorted_complUpTo hfold _
    · exact hfold

theorem perlClass?_sorted {letter : Char} (h : f.perlClass? letter = some s) :
    Sorted s.ranges := by
  obtain ⟨s', hs', hclose⟩ := Option.bind_eq_some_iff.mp h
  refine close?_sorted ?_ hclose
  split at hs'
  · cases hs'
    exact Unicode.sorted_digit
  · cases hs'
    exact Unicode.sorted_blank
  · cases hs'
    exact Unicode.sorted_word
  · exact asciiClass?_sorted hs'
  · exact asciiClass?_sorted hs'
  · exact asciiClass?_sorted hs'
  · cases hs'

theorem propertyClass?_sorted {name : List Char} (h : f.propertyClass? negated name = some s) :
    Sorted s.ranges := by
  have hvalue {negated : Bool} {parts : List Char × List Char}
      (h : (Unicode.propertyValue? (.ofList parts.1) (.ofList parts.2)).bind (f.close? negated) =
        some s) : Sorted s.ranges := by
    obtain ⟨s', hs', hclose⟩ := Option.bind_eq_some_iff.mp h
    exact close?_sorted (Unicode.propertyValue?_sorted hs') hclose
  unfold propertyClass? at h
  dsimp only at h
  split at h
  · cases h
  split at h
  · exact hvalue h
  split at h
  · exact hvalue h
  · obtain ⟨s', hs', hclose⟩ := Option.bind_eq_some_iff.mp h
    exact close?_sorted (Unicode.property?_sorted hs') hclose

/-! ## Escapes -/

end Flags

/-- A set that an atom is stands in order. -/
def Atom.Sorted : Atom → Prop
  | .set s => CharSet.Sorted s.ranges
  | _ => True

namespace Flags
variable {f : Flags} {cs rest : List Char} {s : CharSet} {negated : Bool} {a : Atom}

theorem readNumber?_sorted {digits : Nat} {byte : Bool}
    (h : f.readNumber? digits byte cs = some (a, rest)) : a.Sorted := by
  unfold readNumber? at h
  split at h
  all_goals
    obtain ⟨⟨n, rest'⟩, -, h⟩ := Option.bind_eq_some_iff.mp h
    obtain ⟨c, -, h⟩ := Option.bind_eq_some_iff.mp h
    cases h
    exact trivial

theorem readProperty?_sorted (h : f.readProperty? negated cs = some (a, rest)) : a.Sorted := by
  unfold readProperty? at h
  split at h
  · cases h
  · obtain ⟨⟨name, rest'⟩, -, h⟩ := Option.bind_eq_some_iff.mp h
    obtain ⟨s, hs, h⟩ := Option.bind_eq_some_iff.mp h
    cases h
    exact propertyClass?_sorted hs
  · cases h
  · obtain ⟨s, hs, h⟩ := Option.bind_eq_some_iff.mp h
    obtain ⟨s', hs', hclose⟩ := Option.bind_eq_some_iff.mp hs
    split at h
    · cases h
      exact close?_sorted (Unicode.property?_sorted hs') hclose
    · cases h

theorem readSign?_sorted {c : Char} (h : f.readSign? c cs = some (a, rest)) : a.Sorted := by
  unfold readSign? at h
  split at h
  · obtain ⟨s, hs, h⟩ := Option.map_eq_some_iff.mp h
    cases h
    exact perlClass?_sorted hs
  split at h
  · cases h
    exact trivial
  dsimp only at h
  split at h
  case h_9 =>
    split at h
    · split at h
      · cases h
      · cases h
        exact trivial
      · cases h
        exact trivial
    · cases h
      exact trivial
  case h_13 =>
    split at h
    · cases h
      exact trivial
    · cases h
  all_goals
    cases h
    exact trivial

theorem readEscape?_sorted (h : f.readEscape? cs = some (a, rest)) : a.Sorted := by
  cases cs with
  | nil => cases h
  | cons c cs =>
    rw [readEscape?_cons] at h
    split at h
    · cases h
    split at h
    · exact readNumber?_sorted h
    split at h
    · exact readProperty?_sorted h
    · exact readSign?_sorted h

end Flags

/-! ## Classes -/

/-- What has been read of a class stands in order. -/
structure OpenClass.Sorted (o : OpenClass) : Prop where
  left : ∀ op s height, o.left = some (op, s, height) → CharSet.Sorted s.ranges
  items : CharSet.Sorted o.items.ranges

namespace OpenClass.Sorted
variable {o : OpenClass} {s : CharSet} {f : Flags}

theorem empty (negated : Bool) : OpenClass.Sorted { negated } := ⟨nofun, CharSet.sorted_nil⟩

theorem add (h : o.Sorted) (hs : CharSet.Sorted s.ranges) (height : Nat) :
    (o.add s height).Sorted :=
  ⟨h.left, CharSet.sorted_union h.items hs⟩

theorem body (h : o.Sorted) (f : Flags) : CharSet.Sorted (o.body f).1.ranges := by
  let fold := if !f.ignoreCase then id else if f.unicode then Unicode.foldCase else foldAscii
  have hfold {s : CharSet} (hs : CharSet.Sorted s.ranges) : CharSet.Sorted (fold s).ranges := by
    dsimp only [fold]
    split
    · exact hs
    split
    · exact Unicode.sorted_foldCase hs
    · exact foldAscii_sorted hs
  unfold OpenClass.body
  dsimp only
  split
  · exact h.items
  · rename_i op left height hleft
    have hbefore := hfold (h.left op left height hleft)
    have hitems := hfold h.items
    cases op with
    | inter => exact CharSet.sorted_inter hbefore hitems
    | diff => exact CharSet.sorted_diff hbefore hitems
    | symmDiff => exact CharSet.sorted_symmDiff hbefore hitems

theorem operator (h : o.Sorted) (f : Flags) (op : SetOp) : (o.operator f op).Sorted := by
  refine ⟨fun op' s height hleft => ?_, CharSet.sorted_nil⟩
  cases hleft
  exact h.body f

end OpenClass.Sorted

namespace Flags
variable {f : Flags} {cs rest : List Char} {s : CharSet} {negated : Bool} {a : Atom}
  {o o' : OpenClass}

theorem classAtom?_sorted (h : f.classAtom? cs = some (a, rest)) : a.Sorted := by
  unfold classAtom? at h
  split at h
  · cases h
  · exact readEscape?_sorted h
  · cases h
    exact trivial

theorem classItem?_sorted (h : f.classItem? cs = some (s, rest)) : Sorted s.ranges := by
  obtain ⟨⟨first, rest'⟩, hfirst, h⟩ := Option.bind_eq_some_iff.mp h
  dsimp only at h
  split at h
  · split at h
    · cases h
    split at h
    · cases h
    · cases h
      exact classAtom?_sorted hfirst
    · obtain ⟨n, -, h⟩ := Option.map_eq_some_iff.mp h
      cases h
      exact CharSet.sorted_cons.mpr ⟨Nat.le_refl _, nofun, CharSet.sorted_nil⟩
  · obtain ⟨⟨last, rest'⟩, -, h⟩ := Option.bind_eq_some_iff.mp h
    obtain ⟨lo, -, h⟩ := Option.bind_eq_some_iff.mp h
    obtain ⟨hi, -, h⟩ := Option.bind_eq_some_iff.mp h
    split at h
    · rename_i hle
      cases h
      exact CharSet.sorted_cons.mpr ⟨hle, nofun, CharSet.sorted_nil⟩
    · cases h

theorem namedClass?_sorted (h : namedClass? cs = some (negated, s, rest)) : Sorted s.ranges := by
  unfold namedClass? at h
  split at h
  · dsimp only at h
    split at h
    · obtain ⟨s', hs', h⟩ := Option.map_eq_some_iff.mp h
      cases h
      exact asciiClass?_sorted hs'
    · cases h
  · cases h

theorem leadingDashes_sorted (ho : o.Sorted) (fuel : Nat) (cs : List Char) :
    (f.leadingDashes fuel o cs).1.Sorted := by
  induction fuel generalizing o cs with
  | zero => exact ho
  | succ fuel ih =>
    rw [leadingDashes]
    split
    · exact ih (ho.add (CharSet.sorted_singleton _) 0) _
    · exact ho

theorem openClass?_sorted (h : f.openClass? cs = some (o, rest)) : o.Sorted := by
  have hbracket {o : OpenClass} (ho : o.Sorted) {p : Prop} [Decidable p] (as bs : List Char) :
      (if p then (o.add (.singleton ']') 0, as) else (o, bs)).1.Sorted := by
    split
    · exact ho.add (CharSet.sorted_singleton _) 0
    · exact ho
  unfold openClass? at h
  dsimp only at h
  obtain ⟨-, h⟩ := Option.ite_none_left_eq_some.mp h
  obtain ⟨rfl, -⟩ := Prod.mk.inj (Option.some.inj h)
  exact hbracket (leadingDashes_sorted (.empty _) _ _) _ _

/-- A class is a set in order, as long as what has been read of it and of the classes around it is.
-/
theorem readClass?_sorted {fuel height : Nat} {outer : List OpenClass} (ho : o.Sorted)
    (houter : ∀ p ∈ outer, p.Sorted) (h : f.readClass? fuel o outer cs = some (s, height, rest)) :
    Sorted s.ranges := by
  induction fuel generalizing o outer cs with
  | zero => cases h
  | succ fuel ih =>
    unfold readClass? at h
    split at h
    · cases h
    · split at h
      · rename_i negated s' rest' hnamed
        obtain ⟨s'', hs'', h⟩ := Option.bind_eq_some_iff.mp h
        exact ih (ho.add (close?_sorted (namedClass?_sorted hnamed) hs'') 0) houter h
      · obtain ⟨⟨inner, rest'⟩, hinner, h⟩ := Option.bind_eq_some_iff.mp h
        exact ih (openClass?_sorted hinner) (List.forall_mem_cons.mpr ⟨ho, houter⟩) h
    · obtain ⟨s', hs', h⟩ := Option.bind_eq_some_iff.mp h
      have hbody := close?_sorted (ho.body f) hs'
      split at h
      · cases h
        exact hbody
      · obtain ⟨hp, houter⟩ := List.forall_mem_cons.mp houter
        exact ih (hp.add hbody _) houter h
    · exact ih (ho.operator f .inter) houter h
    · exact ih (ho.operator f .diff) houter h
    · exact ih (ho.operator f .symmDiff) houter h
    · obtain ⟨⟨s', rest'⟩, hs', h⟩ := Option.bind_eq_some_iff.mp h
      exact ih (ho.add (classItem?_sorted hs') 0) houter h

/-! ## Elements -/

theorem charExpr?_proper {c : Char} {byte : Bool} {e : Expr}
    (h : f.charExpr? c byte = some e) : e.Proper := by
  unfold charExpr? at h
  split at h
  · cases h
  · split at h
    · cases h
      exact trivial
    · cases h
      refine Expr.proper_ofSet ?_
      split
      · exact Unicode.sorted_foldCase (CharSet.sorted_singleton c)
      · exact foldAscii_sorted (CharSet.sorted_singleton c)

theorem atomExpr?_proper (ha : a.Sorted) {e : Expr} (h : f.atomExpr? a = some e) : e.Proper := by
  cases a with
  | char c byte => exact charExpr?_proper h
  | set s =>
    cases h
    exact Expr.proper_ofSet ha
  | look l =>
    cases h
    exact trivial

end Flags

/-- A set of all but a few characters. -/
theorem proper_others {s : CharSet} (hs : Sorted s.ranges) (ha : s.others.contains 'a' = true) :
    (Expr.set s.others).Proper :=
  Expr.proper_set_of_contains (CharSet.sorted_others hs) ha

theorem Flags.dot?_proper {f : Flags} {e : Expr} (h : f.dot? = some e) : e.Proper := by
  unfold dot? at h
  split at h
  · cases h
  split at h
  · cases h
    exact proper_others CharSet.sorted_nil (by decide)
  split at h
  · cases h
    exact proper_others (CharSet.sorted_ofRanges (by simp)) (by decide)
  · cases h
    exact proper_others (CharSet.sorted_singleton _) (by decide)

namespace Flags
variable {f : Flags} {cs : List Char}

theorem Literal.proper {e : Expr} (h : f.Literal e) : e.Proper := by
  cases h with
  | char h => exact charExpr?_proper h
  | escape hread h => exact atomExpr?_proper (readEscape?_sorted hread) h
  | dot h => exact dot?_proper h
  | look l => exact trivial

/-- The item that is read from a source is a proper expression. -/
theorem Yields.proper {i : Item} (h : f.Yields cs (.item i)) : i.expr.Proper := by
  cases h with
  | literal h => exact h.proper
  | bracketed hopen hread =>
    have houter : ∀ p ∈ ([] : List OpenClass), p.Sorted := nofun
    exact Expr.proper_ofSet (readClass?_sorted (openClass?_sorted hopen) houter hread)
  | mark h => cases h

/-- The bounds of a repetition that is read are the right way round. -/
theorem Yields.le {min : Nat} {max : Option Nat} {lazyMark : Bool}
    (h : f.Yields cs (.repeated min max lazyMark)) : ∀ m ∈ max, min ≤ m := by
  cases h with
  | repeated _ hle => exact hle
  | mark h => cases h

end Flags

/-! ## Items -/

namespace Item
variable {is : List Item}

theorem ways_sequence (t : Text) (is : List Item) :
    (sequence is).expr.ways t = Ways.row (is.map fun i => i.expr.ways t) := by
  unfold sequence
  split
  · rfl
  · exact (Ways.row_singleton _).symm
  · rw [Expr.ways_concat, List.map_map]
    rfl

theorem proper_sequence (h : ∀ i ∈ is, i.expr.Proper) : (sequence is).expr.Proper := by
  unfold sequence
  split
  · exact trivial
  · exact h _ (List.mem_singleton_self _)
  · exact Expr.proper_concat (List.forall_mem_map.mpr h)

theorem ways_choice (hproper : ∀ i ∈ is, i.expr.Proper) (hne : is ≠ []) {t : Text} {i j : Nat}
    {taken : List (String × Span)} :
    (choice is).expr.ways t i j taken ↔ ∃ b ∈ is, b.expr.ways t i j taken := by
  unfold choice
  split
  · exact absurd rfl hne
  · simp
  · rw [Expr.ways_choice (List.forall_mem_map.mpr hproper)]
    simp only [List.mem_map, exists_exists_and_eq_and]

theorem proper_choice (hproper : ∀ i ∈ is, i.expr.Proper) : (choice is).expr.Proper := by
  unfold choice
  split
  · exact trivial
  · exact hproper _ (List.mem_singleton_self _)
  · exact Expr.proper_choice (List.forall_mem_map.mpr hproper)

end Item
end Tinct.Regex
