import Mathlib.Algebra.GroupWithZero.Nat
import Mathlib.Data.List.Induction
import Tinct.Text

/-!
# Byte offsets

What the byte offsets of a text (`Text.offsets`) say about its positions:

* `Text.offsets_getD`: the offset of a position is the size of the text in front of it
  (`Text.offset`);
* `Text.offset_lt_offset`: later positions have greater offsets;
* `Text.isValid_offset`: every position is a character boundary of the source;
* `slice_offset`: the part of the source between two offsets is the part of the text between the
  two positions;
* `Text.extract_append_extract`, `Text.extract_ofString`: parts that meet make up the part between
  their ends, and the whole text is the source.
-/

namespace Tinct

/-- How many bytes some characters take. -/
def byteCount (cs : List Char) : Nat := (cs.map Char.utf8Size).sum

@[simp] theorem byteCount_nil : byteCount [] = 0 := rfl

@[simp] theorem byteCount_cons (c : Char) (cs : List Char) :
    byteCount (c :: cs) = c.utf8Size + byteCount cs := rfl

@[simp] theorem byteCount_append (cs ds : List Char) :
    byteCount (cs ++ ds) = byteCount cs + byteCount ds := by
  simp [byteCount]

theorem utf8ByteSize_ofList_eq (cs : List Char) :
    (String.ofList cs).utf8ByteSize = byteCount cs := by
  induction cs with
  | nil => rfl
  | cons c cs ih =>
    rw [← List.singleton_append, String.ofList_append, String.utf8ByteSize_append, ih,
      ← String.singleton_eq_ofList, String.utf8ByteSize_singleton, List.singleton_append,
      byteCount_cons]

theorem length_le_byteCount (cs : List Char) : cs.length ≤ byteCount cs := by
  induction cs with
  | nil => exact Nat.le_refl 0
  | cons c cs ih =>
    have := Char.utf8Size_pos c
    rw [List.length_cons, byteCount_cons]
    omega

theorem byteCount_toList (s : String) : byteCount s.toList = s.utf8ByteSize := by
  rw [← utf8ByteSize_ofList_eq, String.ofList_toList]

namespace Text

/-- The byte offset of a position. -/
def offset (t : Text) (i : Nat) : Nat := byteCount (t.chars.toList.take i)

/-- The sums kept while the offsets are collected. -/
theorem foldl_offsets (cs : List Char) :
    cs.foldl (fun (sums : Array Nat) c => sums.push (sums.back! + c.utf8Size)) #[0] =
      ((List.range (cs.length + 1)).map fun i => byteCount (cs.take i)).toArray := by
  induction cs using List.reverseRecOn with
  | nil => rfl
  | append_singleton cs c ih =>
    have hback : ((List.range (cs.length + 1)).map fun i => byteCount (cs.take i)).toArray.back! =
        byteCount cs := by
      simp [List.range_succ]
    have hfront : (List.range (cs.length + 1)).map (fun i => byteCount ((cs ++ [c]).take i)) =
        (List.range (cs.length + 1)).map fun i => byteCount (cs.take i) := by
      refine List.map_congr_left fun i hi => ?_
      rw [List.take_append_of_le_length (by have := List.mem_range.mp hi; omega)]
    rw [List.foldl_append, ih, List.foldl_cons, List.foldl_nil, hback, List.length_append,
      List.length_singleton, List.range_succ (n := cs.length + 1), List.map_append, hfront]
    simp [List.take_of_length_le]

theorem offsets_getD (t : Text) {i : Nat} (h : i ≤ t.size) : t.offsets.getD i 0 = t.offset i := by
  have hi : i < t.chars.toList.length + 1 := by
    simp only [Array.length_toList]; exact Nat.lt_succ_of_le h
  rw [offsets, ← Array.foldl_toList, foldl_offsets, offset, Array.getD_eq_getD_getElem?,
    List.getElem?_toArray, List.getElem?_map, List.getElem?_range hi]
  rfl

theorem offset_le_offset (t : Text) {i j : Nat} (h : i ≤ j) : t.offset i ≤ t.offset j := by
  obtain ⟨k, rfl⟩ := Nat.exists_eq_add_of_le h
  rw [offset, offset, List.take_add, byteCount_append]
  exact Nat.le_add_right _ _

/-- Every character takes a byte or more. -/
theorem offset_lt_offset (t : Text) {i j : Nat} (h : i < j) (hj : j ≤ t.size) :
    t.offset i < t.offset j := by
  have hi : i < t.chars.toList.length := by
    simp only [Array.length_toList]; exact Nat.lt_of_lt_of_le h hj
  refine Nat.lt_of_lt_of_le ?_ (t.offset_le_offset h)
  rw [offset, offset, List.take_succ_eq_append_getElem hi, byteCount_append, byteCount_cons]
  have := Char.utf8Size_pos t.chars.toList[i]
  omega

@[simp] theorem size_ofString (source : String) :
    (ofString source).size = source.toList.length := by
  simp [ofString, size]

@[simp] theorem offset_size (source : String) :
    (ofString source).offset (ofString source).size = source.utf8ByteSize := by
  rw [offset, size_ofString, ofString, ← byteCount_toList]
  simp

/-- A text has no more characters than bytes. -/
theorem size_le_utf8ByteSize (source : String) :
    (ofString source).size ≤ source.utf8ByteSize := by
  rw [size_ofString, ← byteCount_toList]
  exact length_le_byteCount source.toList

/-- A position is a boundary between characters of the source. -/
theorem isValid_offset (source : String) (i : Nat) :
    (String.Pos.Raw.mk ((ofString source).offset i)).IsValid source := by
  rw [String.Pos.Raw.isValid_iff_exists_take_toList]
  exact ⟨i, by simp [offset, ofString, utf8ByteSize_ofList_eq]⟩

end Text

/-! ## Parts of a source -/

theorem Text.extract_append_extract (t : Text) {i j k : Nat} (hij : i ≤ j) (hjk : j ≤ k) :
    t.extract ⟨i, j⟩ ++ t.extract ⟨j, k⟩ = t.extract ⟨i, k⟩ := by
  simp only [Text.extract]
  rw [← String.ofList_append, ← Array.toList_append, Array.extract_append_extract,
    Nat.min_eq_left hij, Nat.max_eq_right hjk]

theorem Text.extract_ofString (source : String) :
    (ofString source).extract ⟨0, (ofString source).size⟩ = source := by
  rw [Text.extract, Text.size, Array.extract_size, ofString, List.toList_toArray,
    String.ofList_toList]

theorem dropBytes_byteCount (cs : List Char) (i : Nat) :
    dropBytes (byteCount (cs.take i)) cs = cs.drop i := by
  induction cs generalizing i with
  | nil => simp [dropBytes]
  | cons c cs ih =>
    have := Char.utf8Size_pos c
    cases i with
    | zero => rfl
    | succ i =>
      rw [List.take_succ_cons, byteCount_cons, dropBytes, if_neg (by omega),
        Nat.add_sub_cancel_left, ih, List.drop_succ_cons]

theorem takeBytes_byteCount (cs : List Char) (i : Nat) :
    takeBytes (byteCount (cs.take i)) cs = cs.take i := by
  have h := takeBytes_append_dropBytes (byteCount (cs.take i)) cs
  rw [dropBytes_byteCount] at h
  exact List.append_cancel_right (h.trans (List.take_append_drop i cs).symm)

/-- Offsets cut a source where the positions they belong to cut its text. -/
theorem slice_offset (source : String) {i j : Nat} (h : i ≤ j) :
    slice source ⟨(Text.ofString source).offset i, (Text.ofString source).offset j⟩ =
      (Text.ofString source).extract ⟨i, j⟩ := by
  obtain ⟨k, rfl⟩ := Nat.exists_eq_add_of_le h
  have hfront : (Text.ofString source).offset i = byteCount (source.toList.take i) := by
    simp [Text.offset, Text.ofString]
  have hlength : (Text.ofString source).offset (i + k) - (Text.ofString source).offset i =
      byteCount ((source.toList.drop i).take k) := by
    simp [Text.offset, Text.ofString, List.take_add]
  rw [slice, hlength, hfront, dropBytes_byteCount, takeBytes_byteCount, Text.extract]
  simp [Text.ofString, List.extract_eq_take_drop]

end Tinct
