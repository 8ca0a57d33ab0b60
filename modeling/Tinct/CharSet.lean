/-!
# Sets of characters

A set of characters is kept as the sorted list of its ranges of code points, where no two ranges
touch. The operations:

* `CharSet.contains`: membership;
* `CharSet.insert`, `CharSet.union`, `CharSet.compl`, `CharSet.inter`, `CharSet.diff`,
  `CharSet.symmDiff`: the set operations, which keep the list sorted;
* `CharSet.others`: the complement among the characters;
* `CharSet.unpack`: ranges from the packed text of a table.
-/

namespace Tinct

/-- The code points from `lo` to `hi`, both included. -/
structure CharRange where
  lo : Nat
  hi : Nat
deriving DecidableEq, Repr, Inhabited

/-- A set of characters, as the ranges of code points it consists of. -/
structure CharSet where
  ranges : List CharRange
deriving DecidableEq, Repr, Inhabited

namespace CharSet

/-- The greatest code point. -/
def maxCode : Nat := 0x10FFFF

/-- The set of ranges that are sorted already. -/
def ofSorted (rs : List CharRange) : CharSet := ⟨rs⟩

/-- The set without members. -/
def empty : CharSet := ⟨[]⟩

/-- The set of every character. -/
def all : CharSet := ⟨[⟨0, maxCode⟩]⟩

def singleton (c : Char) : CharSet := ⟨[⟨c.toNat, c.toNat⟩]⟩

/-- Whether a range of a sorted list holds `n`; looks no further than the first range past `n`. -/
def holds : List CharRange → Nat → Bool
  | [], _ => false
  | r :: rs, n => if n < r.lo then false else if n ≤ r.hi then true else holds rs n

def contains (s : CharSet) (c : Char) : Bool := holds s.ranges c.toNat

/-- The sorted list `rs` with `r` added; ranges that touch become one. -/
def insertRange (r : CharRange) : List CharRange → List CharRange
  | [] => [r]
  | s :: rs =>
    if r.hi + 1 < s.lo then r :: s :: rs
    else if s.hi + 1 < r.lo then s :: insertRange r rs
    else insertRange ⟨min r.lo s.lo, max r.hi s.hi⟩ rs

/-- The set `s` and the code points from `lo` to `hi`. -/
def insert (s : CharSet) (lo hi : Nat) : CharSet := ⟨insertRange ⟨lo, hi⟩ s.ranges⟩

/-- The set of the characters of a list of ranges in any order. -/
def ofRanges (rs : List CharRange) : CharSet := ⟨rs.foldr insertRange []⟩

def union (s t : CharSet) : CharSet :=
  match t.ranges with
  | [] => s
  | rs => ⟨s.ranges.foldr insertRange rs⟩

def unions (ss : List CharSet) : CharSet := ss.foldr union empty

/-- The ranges between those of a sorted list, from the code point `start` to `last`. -/
def gaps (last : Nat) : Nat → List CharRange → List CharRange
  | start, [] => if start ≤ last then [⟨start, last⟩] else []
  | start, r :: rs =>
    if start < r.lo then ⟨start, r.lo - 1⟩ :: gaps last (r.hi + 1) rs
    else gaps last (r.hi + 1) rs

/-- The code points up to `last` that `s` lacks. -/
def complUpTo (last : Nat) (s : CharSet) : CharSet := ⟨gaps last 0 s.ranges⟩

def compl (s : CharSet) : CharSet := s.complUpTo maxCode

/-- The part of a range that holds characters: the code points from 0xD800 to 0xDFFF are none. -/
def characters (r : CharRange) : List CharRange :=
  (if r.lo < 0xD800 then [⟨r.lo, min r.hi 0xD7FF⟩] else []) ++
    (if 0xDFFF < r.hi then [⟨max r.lo 0xE000, r.hi⟩] else [])

/-- The characters that `s` lacks. -/
def others (s : CharSet) : CharSet := ⟨s.compl.ranges.flatMap characters⟩

def inter (s t : CharSet) : CharSet := (s.compl.union t.compl).compl

def diff (s t : CharSet) : CharSet := s.inter t.compl

def symmDiff (s t : CharSet) : CharSet := (s.diff t).union (t.diff s)

def isEmpty (s : CharSet) : Bool := s.ranges.isEmpty

/-- Whether every member is an ASCII character. -/
def isAscii (s : CharSet) : Bool := s.ranges.all (·.hi < 0x80)

/-- The one member of a set that has exactly one. -/
def only? (s : CharSet) : Option Nat :=
  match s.ranges with
  | [r] => if r.lo = r.hi then some r.lo else none
  | _ => none

/-! ## Packed tables

A table is the list of its numbers: for each range the gap before it and its length less one.
A number is written as digits in base 36 (`0` to `9`, `a` to `z`) and one last digit in base 26
(`A` to `Z`), which also ends it. -/

/-- The numbers of a packed text, `acc` being the value of the digits read since the last one. -/
def unpackNumbers : Nat → List Char → List Nat
  | _, [] => []
  | acc, c :: cs =>
    if 'A' ≤ c ∧ c ≤ 'Z' then (acc * 26 + (c.toNat - 65)) :: unpackNumbers 0 cs
    else if c.isDigit then unpackNumbers (acc * 36 + (c.toNat - 48)) cs
    else unpackNumbers (acc * 36 + (c.toNat - 87)) cs

/-- The ranges that the numbers of a table stand for, `start` being the first free code point. -/
def unpackRanges : Nat → List Nat → List CharRange
  | start, gap :: more :: ns =>
    ⟨start + gap, start + gap + more⟩ :: unpackRanges (start + gap + more + 1) ns
  | _, _ => []

/-- The ranges of a packed table whose first gap counts from `start`. -/
def unpack (start : Nat) (lines : List String) : List CharRange :=
  unpackRanges start (unpackNumbers 0 (lines.flatMap String.toList))

end CharSet
end Tinct
