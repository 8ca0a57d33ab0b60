/-!
# Texts

A text is read as an array of characters. A *position* counts the characters in front of it, so
every position is a character boundary; what the library reports are byte offsets into the UTF-8
form of the text:

* `Text.offsets`: the byte offset of every position;
* `Text.positionAt`: the first position at or after a byte offset;
* `slice`: the part of a string between two byte offsets.
-/

namespace Tinct

/-- A part of a text: from `start` up to `stop`, which is not in it. -/
structure Span where
  start : Nat
  stop : Nat
deriving DecidableEq, Repr, Inhabited

namespace Span

def isEmpty (s : Span) : Bool := s.start == s.stop

def map (f : Nat → Nat) (s : Span) : Span := ⟨f s.start, f s.stop⟩

end Span

/-- A text as its characters. -/
structure Text where
  chars : Array Char
deriving Inhabited

namespace Text

def ofString (s : String) : Text := ⟨s.toList.toArray⟩

def size (t : Text) : Nat := t.chars.size

/-- The character after position `i`. -/
def after? (t : Text) (i : Nat) : Option Char := t.chars[i]?

/-- The character before position `i`. -/
def before? (t : Text) : Nat → Option Char
  | 0 => none
  | i + 1 => t.chars[i]?

/-- The text between two positions. -/
def extract (t : Text) (s : Span) : String := .ofList (t.chars.extract s.start s.stop).toList

/-- The byte offset of position 0, 1, … up to the end of the text. -/
def offsets (t : Text) : Array Nat :=
  t.chars.foldl (fun sums c => sums.push (sums.back! + c.utf8Size)) #[0]

/-- The first position whose byte offset is at least `offset`. -/
def positionAt (t : Text) (offset : Nat) : Nat :=
  (t.offsets.findIdx? (offset ≤ ·)).getD (t.size + 1)

end Text

/-- The characters of `cs` that start before the byte offset `n`. -/
def takeBytes : Nat → List Char → List Char
  | _, [] => []
  | n, c :: cs => if n = 0 then [] else c :: takeBytes (n - c.utf8Size) cs

/-- What `takeBytes` leaves. -/
def dropBytes : Nat → List Char → List Char
  | _, [] => []
  | n, c :: cs => if n = 0 then c :: cs else dropBytes (n - c.utf8Size) cs

/-- A text is cut in two without loss. -/
theorem takeBytes_append_dropBytes (n : Nat) (cs : List Char) :
    takeBytes n cs ++ dropBytes n cs = cs := by
  induction cs generalizing n with
  | nil => rfl
  | cons c cs ih =>
    by_cases h : n = 0
    · simp [takeBytes, dropBytes, h]
    · simp [takeBytes, dropBytes, h, ih]

/-- The part of `s` between two byte offsets. -/
def slice (s : String) (span : Span) : String :=
  .ofList (takeBytes (span.stop - span.start) (dropBytes span.start s.toList))

end Tinct
