import Tinct.Proofs.CharSet
import Tinct.Proofs.Unicode.PropertyName

/-!
# The sets of properties

The ranges of every set that a name stands for are in order:

* `Unicode.SortedTable`: tables whose sets are so;
* `Unicode.sorted_of_mem_nameTables`: all tables of properties are;
* `Unicode.property?_sorted`, `Unicode.propertyValue?_sorted`: so is what is found in them.
-/

namespace Tinct.Unicode
open CharSet (Sorted)

/-- The ranges of each set in a table stand in order. -/
def SortedTable (table : List (List String × CharSet)) : Prop := ∀ e ∈ table, Sorted e.2.ranges

section tables
variable {names lines : List String} {table : List (List String × CharSet)} {s : CharSet}
  {ss : List CharSet}

theorem sorted_of_packed (h : s = .ofSorted (CharSet.unpack 0 lines)) : Sorted s.ranges := by
  rw [h]
  exact CharSet.sorted_unpack 0 lines

theorem SortedTable.nil : SortedTable [] := nofun

theorem SortedTable.cons (hs : Sorted s.ranges) (h : SortedTable table) :
    SortedTable ((names, s) :: table) := List.forall_mem_cons.mpr ⟨hs, h⟩

theorem SortedTable.packed (h : SortedTable table) :
    SortedTable ((names, .ofSorted (CharSet.unpack 0 lines)) :: table) :=
  .cons (sorted_of_packed rfl) h

end tables

/-! ## Words, digits and blanks -/

theorem sorted_blank : Sorted blank.ranges := by
  simp [blank, CharSet.ofSorted, CharSet.sorted_cons, CharSet.sorted_nil]

theorem sorted_digit : Sorted digit.ranges :=
  CharSet.sorted_append_unpack [_]
    (by simp [CharSet.sorted_cons, CharSet.sorted_nil]) (by simp) _

theorem sorted_word : Sorted word.ranges :=
  CharSet.sorted_append_unpack [_, _, _, _]
    (by simp [CharSet.sorted_cons, CharSet.sorted_nil]) (by simp) _

/-! ## Tables of names -/

theorem sorted_scripts : SortedTable scripts := by
  unfold scripts
  repeat apply SortedTable.packed
  exact .nil

theorem sorted_scriptExtensions : SortedTable scriptExtensions := by
  unfold scriptExtensions
  repeat apply SortedTable.packed
  exact .nil

theorem sorted_graphemeClusterBreaks : SortedTable graphemeClusterBreaks := by
  unfold graphemeClusterBreaks
  repeat apply SortedTable.packed
  exact .nil

theorem sorted_wordBreaks : SortedTable wordBreaks := by
  unfold wordBreaks
  repeat apply SortedTable.packed
  exact .nil

theorem sorted_sentenceBreaks : SortedTable sentenceBreaks := by
  unfold sentenceBreaks
  repeat apply SortedTable.packed
  exact .nil

theorem sorted_ages : SortedTable ages := by
  unfold ages
  repeat apply SortedTable.packed
  exact .nil

theorem sorted_properties : SortedTable properties := by
  unfold properties
  repeat apply SortedTable.packed
  refine .cons sorted_blank ?_
  repeat apply SortedTable.packed
  exact .nil

/-- A group of categories. -/
theorem sorted_group {s : CharSet} {ss : List CharSet} (h : s = CharSet.unions ss)
    (hss : ∀ s ∈ ss, Sorted s.ranges) : Sorted s.ranges := by
  rw [h]
  exact CharSet.sorted_unions hss

theorem sorted_casedLetter : Sorted casedLetter.ranges := by
  refine sorted_group rfl ?_
  repeat refine List.forall_mem_cons.mpr ⟨sorted_of_packed rfl, ?_⟩
  exact nofun

theorem sorted_categories : SortedTable categories := by
  unfold categories
  iterate 12 refine .cons (sorted_of_packed rfl) ?_
  refine .cons sorted_digit ?_
  iterate 16 refine .cons (sorted_of_packed rfl) ?_
  -- the groups
  refine .cons (sorted_group rfl ?_) <| .cons (sorted_group rfl ?_) <| .cons sorted_casedLetter <|
    .cons (sorted_group rfl ?_) <| .cons (sorted_group rfl ?_) <| .cons (sorted_group rfl ?_) <|
    .cons (sorted_group rfl ?_) <| .cons (sorted_group rfl ?_) .nil
  case refine_2 =>
    refine List.forall_mem_cons.mpr ⟨sorted_casedLetter, ?_⟩
    repeat refine List.forall_mem_cons.mpr ⟨sorted_of_packed rfl, ?_⟩
    exact nofun
  case refine_4 =>
    refine List.forall_mem_cons.mpr ⟨sorted_digit, ?_⟩
    repeat refine List.forall_mem_cons.mpr ⟨sorted_of_packed rfl, ?_⟩
    exact nofun
  all_goals
    repeat refine List.forall_mem_cons.mpr ⟨sorted_of_packed rfl, ?_⟩
    exact nofun

theorem sorted_of_mem_nameTables {table : List (List String × CharSet)}
    (h : table ∈ nameTables) : SortedTable table := by
  simp only [nameTables, List.mem_cons, List.not_mem_nil, or_false] at h
  obtain rfl | rfl | rfl | rfl | rfl | rfl | rfl | rfl := h
  · exact sorted_scripts
  · exact sorted_scriptExtensions
  · exact sorted_graphemeClusterBreaks
  · exact sorted_wordBreaks
  · exact sorted_sentenceBreaks
  · exact sorted_categories
  · exact sorted_properties
  · exact sorted_ages

/-! ## Looking sets up -/

section lookup
variable {name value : String} {s : CharSet} {table : List (List String × CharSet)}

theorem findIn_sorted (htable : table ∈ nameTables) (h : findIn table name = some s) :
    Sorted s.ranges := by
  obtain ⟨e, he, rfl⟩ := Option.map_eq_some_iff.mp h
  exact sorted_of_mem_nameTables htable e (List.mem_of_find?_eq_some he)

theorem category?_sorted (h : category? name = some s) : Sorted s.ranges := by
  unfold category? at h
  split at h
  · cases h
    exact CharSet.sorted_cons.mpr ⟨Nat.zero_le _, nofun, CharSet.sorted_nil⟩
  split at h
  · cases h
    exact CharSet.sorted_compl (sorted_of_packed rfl)
  split at h
  · cases h
    exact CharSet.sorted_cons.mpr ⟨Nat.zero_le _, nofun, CharSet.sorted_nil⟩
  exact findIn_sorted (by simp [nameTables]) h

theorem age?_sorted (h : age? name = some s) : Sorted s.ranges := by
  unfold age? at h
  dsimp only at h
  split at h
  · cases h
  · rename_i age rest hdrop
    cases h
    refine CharSet.sorted_unions (List.forall_mem_map.mpr fun e he => ?_)
    obtain he | he := List.mem_append.mp he
    · exact sorted_ages e ((List.takeWhile_prefix _).subset he)
    · obtain rfl := List.mem_singleton.mp he
      exact sorted_ages e (List.mem_of_mem_drop (hdrop ▸ List.mem_cons_self))

theorem property?_sorted (h : property? name = some s) : Sorted s.ranges := by
  obtain h | ⟨-, h⟩ := Option.or_eq_some_iff.mp h
  · exact findIn_sorted (by simp [nameTables]) h
  obtain h | ⟨-, h⟩ := Option.or_eq_some_iff.mp h
  · exact category?_sorted h
  · exact findIn_sorted (by simp [nameTables]) h

theorem propertyValue?_sorted (h : propertyValue? name value = some s) : Sorted s.ranges := by
  obtain ⟨-, h | h | ⟨table, htable, h⟩⟩ := propertyValue?_cases h
  · exact category?_sorted h
  · exact age?_sorted h
  · exact findIn_sorted htable h

end lookup
end Tinct.Unicode
