import Tinct.CharSet

/-!
# Encoded characters

A character is encoded in UTF-8 by one to four bytes. A range of characters is encoded by sequences
of byte ranges, each of which stands for every choice of one byte from each of its ranges:

* `utf8Bytes`: the bytes of a code point;
* `byteSequences`: the sequences for a range of characters;
* `CharSet.byteSequences`: those for a set, lower characters first.
-/

namespace Tinct.Regex

/-- The bytes from `lo` to `hi`, both included. -/
structure ByteRange where
  lo : Nat
  hi : Nat
deriving DecidableEq, Repr, Inhabited

/-- The number of bytes that encode a code point. -/
def utf8Length (n : Nat) : Nat :=
  if n < 0x80 then 1 else if n < 0x800 then 2 else if n < 0x10000 then 3 else 4

/-- The bytes that encode a code point. -/
def utf8Bytes (n : Nat) : List Nat :=
  let tail (i : Nat) : Nat := 0x80 + n / Nat.pow 64 i % 64
  match utf8Length n with
  | 1 => [n]
  | 2 => [0xC0 + n / 64, tail 0]
  | 3 => [0xE0 + n / Nat.pow 64 2, tail 1, tail 0]
  | _ => [0xF0 + n / Nat.pow 64 3, tail 2, tail 1, tail 0]

/-- Cuts a range where its encodings stop being a product of byte ranges, at the level of the
last `level` bytes; the lengths of the encodings are equal. -/
def cut (level : Nat) : Nat → Nat → Nat → List CharRange
  | 0, lo, hi => [⟨lo, hi⟩]
  | fuel + 1, lo, hi =>
    if level = 0 then [⟨lo, hi⟩]
    else
      let block := Nat.pow 64 level
      if lo / block = hi / block then cut (level - 1) fuel lo hi
      else if lo % block ≠ 0 then
        let edge := (lo / block + 1) * block
        cut (level - 1) fuel lo (edge - 1) ++ cut level fuel edge hi
      else if (hi + 1) % block ≠ 0 then
        let edge := hi / block * block
        cut level fuel lo (edge - 1) ++ cut (level - 1) fuel edge hi
      else [⟨lo, hi⟩]

/-- The parts of a range that are encoded alike in length and hold no surrogate. -/
def sameLength (r : CharRange) : List CharRange :=
  [⟨0, 0x7F⟩, ⟨0x80, 0x7FF⟩, ⟨0x800, 0xD7FF⟩, ⟨0xE000, 0xFFFF⟩, ⟨0x10000, 0x10FFFF⟩].filterMap
    fun (s : CharRange) =>
      let lo := max r.lo s.lo
      let hi := min r.hi s.hi
      if lo ≤ hi then some ⟨lo, hi⟩ else none

/-- The sequences of byte ranges by which the characters of a range are encoded. A range is cut
at most twice at each level, so that the fuel suffices. -/
def byteSequences (r : CharRange) : List (List ByteRange) :=
  (sameLength r).flatMap fun s =>
    (cut (utf8Length s.lo - 1) 16 s.lo s.hi).map fun p =>
      List.zipWith ByteRange.mk (utf8Bytes p.lo) (utf8Bytes p.hi)

end Regex

/-- The sequences of byte ranges by which the characters of a set are encoded. -/
def CharSet.byteSequences (s : CharSet) : List (List Regex.ByteRange) :=
  s.ranges.flatMap Regex.byteSequences

end Tinct
