import Tinct.Regex.Expr
import Tinct.Unicode.Case
import Tinct.Unicode.Lookup
import Tinct.Unicode.Name
import Tinct.Unicode.Word

/-!
# Reading regular expressions

`Expr.parse?` reads the source of a regular expression. Flags, classes and escapes are resolved
while reading, so that an `Expr` needs none of them:

* `Flags`: the flags in force, which `(?i)` changes up to the end of its group and `(?i:…)`
  inside its own;
* `readEscape?`, `readClass?`: what stands for one character or for an assertion;
* `readCount?`: the bounds of a counted repetition;
* `step?`: one element of the source, on a stack of open groups.

Nothing is read of a source that nests deeper than `nestLimit`.
-/

namespace Tinct.Regex

/-- The flags in force at some place of a source. -/
structure Flags where
  /-- Letters match in either case (`i`). -/
  ignoreCase : Bool := false
  /-- Whether `^` and `$` match at line ends too (`m`). -/
  multiLine : Bool := false
  /-- Whether `.` matches line ends too (`s`). -/
  dotAll : Bool := false
  /-- Repetitions are lazy, and greedy with a `?` behind (`U`). -/
  swapGreed : Bool := false
  /-- Classes and boundaries follow Unicode (`u`). -/
  unicode : Bool := true
  /-- Lines end at `\r` too (`R`). -/
  anyLineEnd : Bool := false
  /-- White space and comments are skipped (`x`). -/
  verbose : Bool := false
deriving DecidableEq, Repr, Inhabited

namespace Flags

/-- The flags `f` with that of a letter turned on or off. -/
def set? (f : Flags) (letter : Char) (on : Bool) : Option Flags :=
  match letter with
  | 'i' => some { f with ignoreCase := on }
  | 'm' => some { f with multiLine := on }
  | 's' => some { f with dotAll := on }
  | 'U' => some { f with swapGreed := on }
  | 'u' => some { f with unicode := on }
  | 'R' => some { f with anyLineEnd := on }
  | 'x' => some { f with verbose := on }
  | _ => none

end Flags

/-! ## Blanks -/

/-- A source past the white space and the comments in front of it. -/
def skipBlanks : Bool → List Char → List Char
  | _, [] => []
  | true, c :: cs => skipBlanks (c != '\n') cs
  | false, c :: cs =>
    if c = '#' then skipBlanks true cs
    else if Unicode.blank.contains c then skipBlanks false cs
    else c :: cs

/-- A source past its blanks, where they are skipped. -/
def Flags.skip (f : Flags) (cs : List Char) : List Char :=
  if f.verbose then skipBlanks false cs else cs

/-- A source past its first character and the blanks behind it. -/
def Flags.next (f : Flags) (cs : List Char) : List Char := f.skip (cs.drop 1)

/-- The first character of a source that is neither white space nor the `#` of a comment; what
stands in the comment counts, but for another comment's `#`. -/
def firstVisible? : Bool → List Char → Option Char
  | _, [] => none
  | comment, c :: cs =>
    if Unicode.blank.contains c then firstVisible? comment cs
    else if !comment && c == '#' then firstVisible? true cs
    else some c

/-- The character that seems to follow the first one, looking no further than that. A blank is
taken for it only if nothing else follows. -/
def Flags.peek? (f : Flags) (cs : List Char) : Option Char :=
  let rest := cs.drop 1
  if f.verbose then (firstVisible? false rest).or rest.head? else rest.head?

/-! ## Classes by name -/

/-- The sets that `[:name:]` stands for. -/
def asciiClass? : String → Option CharSet
  | "alnum" => some ⟨[⟨0x30, 0x39⟩, ⟨0x41, 0x5A⟩, ⟨0x61, 0x7A⟩]⟩
  | "alpha" => some ⟨[⟨0x41, 0x5A⟩, ⟨0x61, 0x7A⟩]⟩
  | "ascii" => some ⟨[⟨0x00, 0x7F⟩]⟩
  | "blank" => some ⟨[⟨0x09, 0x09⟩, ⟨0x20, 0x20⟩]⟩
  | "cntrl" => some ⟨[⟨0x00, 0x1F⟩, ⟨0x7F, 0x7F⟩]⟩
  | "digit" => some ⟨[⟨0x30, 0x39⟩]⟩
  | "graph" => some ⟨[⟨0x21, 0x7E⟩]⟩
  | "lower" => some ⟨[⟨0x61, 0x7A⟩]⟩
  | "print" => some ⟨[⟨0x20, 0x7E⟩]⟩
  | "punct" => some ⟨[⟨0x21, 0x2F⟩, ⟨0x3A, 0x40⟩, ⟨0x5B, 0x60⟩, ⟨0x7B, 0x7E⟩]⟩
  | "space" => some ⟨[⟨0x09, 0x0D⟩, ⟨0x20, 0x20⟩]⟩
  | "upper" => some ⟨[⟨0x41, 0x5A⟩]⟩
  | "word" => some ⟨[⟨0x30, 0x39⟩, ⟨0x41, 0x5A⟩, ⟨0x5F, 0x5F⟩, ⟨0x61, 0x7A⟩]⟩
  | "xdigit" => some ⟨[⟨0x30, 0x39⟩, ⟨0x41, 0x46⟩, ⟨0x61, 0x66⟩]⟩
  | _ => none

/-- The set `s` with the ASCII letters that differ from a member only by case. -/
def foldAscii (s : CharSet) : CharSet :=
  let upper := s.inter ⟨[⟨0x41, 0x5A⟩]⟩
  let lower := s.inter ⟨[⟨0x61, 0x7A⟩]⟩
  (s.union ⟨upper.ranges.map fun r => ⟨r.lo + 32, r.hi + 32⟩⟩).union
    ⟨lower.ranges.map fun r => ⟨r.lo - 32, r.hi - 32⟩⟩

/-- A class as the flags have it. Without Unicode a class is one of bytes, and only ASCII bytes
are characters. -/
def Flags.close? (f : Flags) (negated : Bool) (s : CharSet) : Option CharSet :=
  if f.unicode then
    let s := if f.ignoreCase then Unicode.foldCase s else s
    some (if negated then s.others else s)
  else
    let s := if f.ignoreCase then foldAscii s else s
    let s := if negated then s.complUpTo 0xFF else s
    if s.isAscii then some s else none

/-- The classes `\d`, `\s`, `\w` and, in capitals, their complements. -/
def Flags.perlClass? (f : Flags) (letter : Char) : Option CharSet :=
  let set? : Option CharSet :=
    match letter.toLower, f.unicode with
    | 'd', true => some Unicode.digit
    | 's', true => some Unicode.blank
    | 'w', true => some Unicode.word
    | 'd', false => asciiClass? "digit"
    | 's', false => asciiClass? "space"
    | 'w', false => asciiClass? "word"
    | _, _ => none
  set?.bind fun s => { f with ignoreCase := false }.close? letter.isUpper s

/-- The text before the first `mark` in `name` and the text behind it. -/
def splitAtMark? (mark name : List Char) : Option (List Char × List Char) :=
  if mark.isPrefixOf name then some ([], name.drop mark.length)
  else
    match name with
    | [] => none
    | c :: cs => (splitAtMark? mark cs).map fun (before, after) => (c :: before, after)

/-- The class that `\p` and a name stand for, `\P` giving the complement. A name and a value may
stand around `!=`, which gives the complement too, or else around `:` or `=`. -/
def Flags.propertyClass? (f : Flags) (negated : Bool) (name : List Char) : Option CharSet :=
  let value? (negated : Bool) (parts : List Char × List Char) :=
    (Unicode.propertyValue? (.ofList parts.1) (.ofList parts.2)).bind (f.close? negated)
  if !f.unicode then none
  else
    match splitAtMark? ['!', '='] name with
    | some parts => value? (!negated) parts
    | none =>
      match (splitAtMark? [':'] name).or (splitAtMark? ['='] name) with
      | some parts => value? negated parts
      | none => (Unicode.property? (.ofList name)).bind (f.close? negated)

/-! ## Escapes -/

/-- What an escape or a plain character stands for. -/
inductive Atom where
  /-- One character, possibly written as the number of a byte. -/
  | char (c : Char) (byte : Bool)
  | set (s : CharSet)
  | look (l : Look)

def hexValue? (c : Char) : Option Nat :=
  if '0' ≤ c ∧ c ≤ '9' then some (c.toNat - 48)
  else if 'a' ≤ c ∧ c ≤ 'f' then some (c.toNat - 87)
  else if 'A' ≤ c ∧ c ≤ 'F' then some (c.toNat - 55)
  else none

def charOf? (n : Nat) : Option Char := if n.isValidChar then some (.ofNat n) else none

/-- Exactly `n` hexadecimal digits. -/
def Flags.hexDigits? (f : Flags) : Nat → Nat → List Char → Option (Nat × List Char)
  | 0, value, cs => some (value, cs)
  | n + 1, value, cs => do
    let c ← cs.head?
    let d ← hexValue? c
    f.hexDigits? n (value * 16 + d) (f.next cs)

/-- Hexadecimal digits up to a closing brace; `value?` holds what has been read. -/
def Flags.hexBraced? (f : Flags) : Nat → Option Nat → List Char → Option (Nat × List Char)
  | 0, _, _ => none
  | fuel + 1, value?, cs =>
    match cs with
    | [] => none
    | '\x7d' :: _ => value?.map fun v => (v, f.next cs)
    | c :: _ => do
      let d ← hexValue? c
      f.hexBraced? fuel (some (value?.getD 0 * 16 + d)) (f.next cs)

/-- The text up to a closing brace and what stands behind the brace. -/
def Flags.braced? (f : Flags) : Nat → List Char → List Char → Option (List Char × List Char)
  | 0, _, _ => none
  | fuel + 1, before, cs =>
    match cs with
    | [] => none
    | '\x7d' :: rest => some (before.reverse, rest)
    | c :: _ => f.braced? fuel (c :: before) (f.next cs)

def isMeta (c : Char) : Bool := "\\.+*?()|[]\x7b\x7d^$#&-~".toList.contains c

/-- The assertion that `\b` and a name in braces stand for; `none` where what stands in the
braces cannot be a name, as in a counted repetition. -/
def Flags.boundaryName? (f : Flags) (cs : List Char) : Option (Option (Look × List Char)) :=
  let inside := f.next cs
  match inside with
  | [] => none
  | c :: _ =>
    if !isNameChar c then some none
    else
      match f.braced? (inside.length + 1) [] inside with
      | none => none
      | some (name, rest) =>
        let ascii := !f.unicode
        match String.ofList name with
        | "start" => some (some (.wordStart ascii, rest))
        | "end" => some (some (.wordEnd ascii, rest))
        | "start-half" => some (some (.wordStartHalf ascii, rest))
        | "end-half" => some (some (.wordEndHalf ascii, rest))
        | _ => none
where
  isNameChar (c : Char) : Bool := c.isAlpha || c == '-'

/-- What the escape stands for whose backslash precedes `cs`, and the source behind it. -/
def Flags.readEscape? (f : Flags) : List Char → Option (Atom × List Char)
  | [] => none
  | c :: cs =>
    if c.isDigit then none
    else if c = 'x' ∨ c = 'u' ∨ c = 'U' then
      let inside := f.next (c :: cs)
      if inside.head? = some '\x7b' then do
        let (n, rest) ← f.hexBraced? (inside.length + 1) none (f.next inside)
        return (.char (← charOf? n) false, rest)
      else do
        let digits := if c = 'x' then 2 else if c = 'u' then 4 else 8
        let (n, rest) ← f.hexDigits? digits 0 inside
        return (.char (← charOf? n) (c = 'x'), rest)
    else if c = 'p' ∨ c = 'P' then
      match f.next (c :: cs) with
      | [] => none
      | '\x7b' :: inside => do
        let (name, rest) ← f.braced? (inside.length + 1) [] (f.skip inside)
        return (.set (← f.propertyClass? (c = 'P') name), rest)
      | '\\' :: _ => none
      | letter :: rest => do
        let s ← (Unicode.property? letter.toString).bind (f.close? (c = 'P'))
        if f.unicode then return (.set s, f.skip rest) else none
    else if "dswDSW".toList.contains c then (f.perlClass? c).map fun s => (.set s, cs)
    else if isMeta c then some (.char c false, cs)
    else
      let ascii := !f.unicode
      match c with
      | 'a' => some (.char '\x07' false, cs)
      | 'f' => some (.char '\x0c' false, cs)
      | 't' => some (.char '\t' false, cs)
      | 'n' => some (.char '\n' false, cs)
      | 'r' => some (.char '\r' false, cs)
      | 'v' => some (.char '\x0b' false, cs)
      | 'A' => some (.look .textStart, cs)
      | 'z' => some (.look .textEnd, cs)
      | 'b' =>
        if cs.head? = some '\x7b' then
          match f.boundaryName? cs with
          | none => none
          | some none => some (.look (.wordBoundary ascii), cs)
          | some (some (l, rest)) => some (.look l, rest)
        else some (.look (.wordBoundary ascii), cs)
      | 'B' => some (.look (.notWordBoundary ascii), cs)
      | '<' => some (.look (.wordStart ascii), cs)
      | '>' => some (.look (.wordEnd ascii), cs)
      | _ => if c.toNat < 0x80 ∧ !c.isAlphanum then some (.char c false, cs) else none

/-! ## Bracketed classes -/

/-- The set operations inside brackets. -/
inductive SetOp where
  | inter
  | diff
  | symmDiff

def SetOp.apply (op : SetOp) (a b : CharSet) : CharSet :=
  match op with
  | .inter => a.inter b
  | .diff => a.diff b
  | .symmDiff => a.symmDiff b

/-- A bracketed class being read: what stands left of the last set operation, the union of the
items behind it, how many these are, and how deep either side nests. -/
structure OpenClass where
  negated : Bool
  left : Option (SetOp × CharSet × Nat) := none
  items : CharSet := .empty
  count : Nat := 0
  height : Nat := 0

namespace OpenClass

def add (o : OpenClass) (s : CharSet) (height : Nat) : OpenClass :=
  { o with items := o.items.union s, count := o.count + 1, height := max o.height height }

/-- What has been read as one set, with its nesting. -/
def body (f : Flags) (o : OpenClass) : CharSet × Nat :=
  let height := if o.count ≤ 1 then o.height else o.height + 1
  match o.left with
  | none => (o.items, height)
  | some (op, left, leftHeight) =>
    let fold := if !f.ignoreCase then id else if f.unicode then Unicode.foldCase else foldAscii
    (op.apply (fold left) (fold o.items), max leftHeight height + 1)

/-- A set operation follows. -/
def operator (f : Flags) (o : OpenClass) (op : SetOp) : OpenClass :=
  let (s, height) := o.body f
  { negated := o.negated, left := some (op, s, height) }

end OpenClass

/-- A member of a class as one character, if it is one that the flags allow there. -/
def Flags.classChar? (f : Flags) : Atom → Option Nat
  | .char c _ => if f.unicode || c.toNat < 0x80 then some c.toNat else none
  | _ => none

/-- One member of a class: a character or an escape. -/
def Flags.classAtom? (f : Flags) : List Char → Option (Atom × List Char)
  | [] => none
  | '\\' :: cs => f.readEscape? cs
  | c :: cs => some (.char c false, cs)

/-- One item of a class: a member or a range. -/
def Flags.classItem? (f : Flags) (cs : List Char) : Option (CharSet × List Char) := do
  let (first, rest) ← f.classAtom? cs
  let rest := f.skip rest
  let behind := f.peek? rest
  if rest.head? ≠ some '-' ∨ behind = some ']' ∨ behind = some '-' then
    if rest.isEmpty then none
    else
      match first with
      | .look _ => none
      | .set s => some (s, rest)
      | .char .. => (f.classChar? first).map fun n => (⟨[⟨n, n⟩]⟩, rest)
  else do
    let (last, rest) ← f.classAtom? (f.next rest)
    let lo ← f.classChar? first
    let hi ← f.classChar? last
    if lo ≤ hi then some (⟨[⟨lo, hi⟩]⟩, rest) else none

/-- A class by name such as `[:alpha:]` behind its first bracket. -/
def namedClass? (cs : List Char) : Option (Bool × CharSet × List Char) :=
  match cs with
  | ':' :: cs =>
    let (negated, cs) := if cs.head? = some '^' then (true, cs.drop 1) else (false, cs)
    match cs.dropWhile (· != ':') with
    | ':' :: ']' :: rest =>
      (asciiClass? (.ofList (cs.takeWhile (· != ':')))).map fun s => (negated, s, rest)
    | _ => none
  | _ => none

/-- Leading dashes are members of a class. -/
def Flags.leadingDashes (f : Flags) : Nat → OpenClass → List Char → OpenClass × List Char
  | 0, o, cs => (o, cs)
  | fuel + 1, o, cs =>
    if cs.head? = some '-' then f.leadingDashes fuel (o.add (.singleton '-') 0) (f.next cs)
    else (o, cs)

/-- The start of a class behind its bracket: its negation, leading dashes, and a closing bracket
that is the first member. -/
def Flags.openClass? (f : Flags) (cs : List Char) : Option (OpenClass × List Char) :=
  let cs := f.skip cs
  let (negated, cs) := if cs.head? = some '^' then (true, f.next cs) else (false, cs)
  let (o, cs) := f.leadingDashes cs.length { negated } cs
  let (o, cs) :=
    if o.count = 0 ∧ cs.head? = some ']' then (o.add (.singleton ']') 0, f.next cs) else (o, cs)
  if cs.isEmpty then none else some (o, cs)

/-- A class behind its first bracket, as a set, how deep it nests, and the source behind it.
`outer` holds the classes around the one being read. -/
def Flags.readClass? (f : Flags) :
    Nat → OpenClass → List OpenClass → List Char → Option (CharSet × Nat × List Char)
  | 0, _, _, _ => none
  | fuel + 1, o, outer, cs =>
    match f.skip cs with
    | [] => none
    | '[' :: cs =>
      match namedClass? cs with
      | some (negated, s, rest) => do
        f.readClass? fuel (o.add (← f.close? negated s) 0) outer rest
      | none => do
        let (inner, rest) ← f.openClass? cs
        f.readClass? fuel inner (o :: outer) rest
    | ']' :: rest => do
      let (s, height) := o.body f
      let s ← f.close? o.negated s
      match outer with
      | [] => return (s, height + 1, rest)
      | p :: outer => f.readClass? fuel (p.add s (height + 1)) outer rest
    | '&' :: '&' :: rest => f.readClass? fuel (o.operator f .inter) outer rest
    | '-' :: '-' :: rest => f.readClass? fuel (o.operator f .diff) outer rest
    | '~' :: '~' :: rest => f.readClass? fuel (o.operator f .symmDiff) outer rest
    | cs => do
      let (s, rest) ← f.classItem? cs
      f.readClass? fuel (o.add s 0) outer rest

/-! ## Counted repetitions -/

/-- A decimal number that fits 32 bits, with white space around it. -/
def Flags.readDecimal? (f : Flags) (cs : List Char) : Option (Nat × List Char) :=
  let cs := cs.dropWhile Unicode.blank.contains
  match digits cs.length cs with
  | ([], _) => none
  | (ds, rest) =>
    let n := ds.foldl (fun n d => n * 10 + (d.toNat - 48)) 0
    if n < Nat.pow 2 32 then some (n, f.skip (rest.dropWhile Unicode.blank.contains)) else none
where
  digits : Nat → List Char → List Char × List Char
    | 0, cs => ([], cs)
    | fuel + 1, cs =>
      match cs with
      | [] => ([], [])
      | c :: _ =>
        if c.isDigit then
          let (ds, rest) := digits fuel (f.next cs)
          (c :: ds, rest)
        else ([], cs)

/-- The bounds of a counted repetition at its opening brace, and the source from its closing
brace on. -/
def Flags.readCount? (f : Flags) (cs : List Char) : Option (Nat × Option Nat × List Char) := do
  let (min, rest) ← f.readDecimal? (f.next cs)
  match rest with
  | ',' :: _ =>
    let inside := f.next rest
    if inside.head? = some '\x7d' then return (min, none, inside)
    else do
      let (max, rest) ← f.readDecimal? inside
      if rest.head? = some '\x7d' ∧ min ≤ max then return (min, some max, rest) else none
  | '\x7d' :: _ => return (min, some min, rest)
  | _ => none

/-! ## Sources -/

/-- An element of a source: what it stands for, how deep it nests, and whether a repetition may
follow it. -/
structure Item where
  expr : Expr
  height : Nat
  repeatable : Bool := true

def Item.sequence : List Item → Item
  | [] => ⟨.empty, 0, true⟩
  | [i] => i
  | is => ⟨.concat (is.map (·.expr)), (is.map (·.height)).foldl max 0 + 1, true⟩

def Item.choice : List Item → Item
  | [] => ⟨.empty, 0, true⟩
  | [i] => i
  | is => ⟨.choice (is.map (·.expr)), (is.map (·.height)).foldl max 0 + 1, true⟩

/-- An open group: the alternatives before the current one and the elements of the current one,
both last first; the flags outside; and its number and name if it records. -/
structure OpenGroup where
  outside : Flags
  number? : Option (Nat × Option String)
  alternatives : List Item := []
  items : List Item := []

def OpenGroup.add (g : OpenGroup) (i : Item) : OpenGroup := { g with items := i :: g.items }

/-- The group's contents as one element. -/
def OpenGroup.contents (g : OpenGroup) : Item :=
  .choice ((.sequence g.items.reverse :: g.alternatives).reverse)

/-- How far a source has been read. -/
structure Reading where
  rest : List Char
  flags : Flags
  /-- The innermost open group; the outermost one is the source itself. -/
  group : OpenGroup
  outer : List OpenGroup := []
  /-- The number of groups that record and have been opened. -/
  opened : Nat := 0
  names : List String := []

def Reading.add (r : Reading) (i : Item) (rest : List Char) : Reading :=
  { r with group := r.group.add i, rest }

/-- The letters of a flag group and the source from the colon or bracket behind them. -/
def readFlags? (f : Flags) (on : Bool) (seen : List Char) : List Char → Option (Flags × List Char)
  | [] => none
  | c :: cs =>
    if c = ':' ∨ c = ')' then
      if seen.head? = some '-' then none else some (f, c :: cs)
    else if seen.contains c then none
    else if c = '-' then readFlags? f false (c :: seen) cs
    else do readFlags? (← f.set? c on) on (c :: seen) cs

def isNameStart (c : Char) : Bool := c == '_' || Unicode.nameLetter.contains c

def isNamePart (c : Char) : Bool :=
  isNameStart c || "._[]".toList.contains c || Unicode.nameNumber.contains c

/-- The name of a group up to its closing angle bracket. -/
def readName? (cs : List Char) : Option (String × List Char) :=
  match cs.takeWhile (· != '>'), cs.dropWhile (· != '>') with
  | c :: name, _ :: rest =>
    if isNameStart c && name.all isNamePart then some (.ofList (c :: name), rest) else none
  | _, _ => none

/-- A group that records opens. -/
def Reading.openNumbered (r : Reading) (name : Option String) (rest : List Char) : Reading :=
  { r with
    rest
    group := ⟨r.flags, some (r.opened + 1, name), [], []⟩
    outer := r.group :: r.outer
    opened := r.opened + 1
    names := name.toList ++ r.names }

/-- What follows an opening parenthesis. -/
def Reading.openGroup? (r : Reading) (cs : List Char) : Option Reading :=
  let named (cs : List Char) : Option Reading := do
    let (name, rest) ← readName? cs
    if r.names.contains name then none else some (r.openNumbered (some name) rest)
  match r.flags.skip cs with
  | '?' :: '=' :: _ | '?' :: '!' :: _ | '?' :: '<' :: '=' :: _ | '?' :: '<' :: '!' :: _ => none
  | '?' :: 'P' :: '<' :: cs | '?' :: '<' :: cs => named cs
  | '?' :: cs => do
    let (flags, rest) ← readFlags? r.flags true [] cs
    match rest with
    | ')' :: rest =>
      if cs.head? = some ')' then none
      else some { r with flags, rest, group := r.group.add ⟨.empty, 0, false⟩ }
    | _ =>
      some { r with
        flags, rest := rest.drop 1
        group := ⟨r.flags, none, [], []⟩
        outer := r.group :: r.outer }
  | cs => some (r.openNumbered none cs)

/-- The innermost group closes. -/
def Reading.closeGroup? (r : Reading) (rest : List Char) : Option Reading :=
  match r.outer with
  | [] => none
  | p :: outer =>
    let body := r.group.contents
    let expr := match r.group.number? with
      | some (i, name) => .group i name body.expr
      | none => body.expr
    some { r with
      rest, outer
      flags := r.group.outside
      group := p.add ⟨expr, body.height + 1, true⟩ }

/-- The last element is repeated; `rest` is the source behind the operator. -/
def Reading.repeat? (r : Reading) (min : Nat) (max : Option Nat) (rest : List Char) :
    Option Reading :=
  match r.group.items with
  | [] => none
  | i :: items =>
    if !i.repeatable then none
    else
      let lazyMark := rest.head? = some '?'
      let greedy := lazyMark == r.flags.swapGreed
      let i : Item := ⟨i.expr.repeated min max greedy, i.height + 1, true⟩
      some { r with
        rest := if lazyMark then rest.drop 1 else rest
        group := { r.group with items := i :: items } }

/-- One character of a source, in either case if case is ignored. -/
def Flags.charExpr? (f : Flags) (c : Char) (byte : Bool) : Option Expr :=
  if !f.unicode && byte && 0x80 ≤ c.toNat then none
  else if !f.ignoreCase then some (.literal [c])
  else some (.ofSet ((if f.unicode then Unicode.foldCase else foldAscii) (.singleton c)))

def Flags.atomExpr? (f : Flags) : Atom → Option Expr
  | .char c byte => f.charExpr? c byte
  | .set s => some (.ofSet s)
  | .look l => some (.look l)

/-- The dot: any character but a line end. -/
def Flags.dot? (f : Flags) : Option Expr :=
  if !f.unicode then none
  else if f.dotAll then some (.set CharSet.empty.others)
  else if f.anyLineEnd then some (.set (CharSet.ofRanges [⟨10, 10⟩, ⟨13, 13⟩]).others)
  else some (.set (CharSet.singleton '\n').others)

/-- One element of a source that is not empty. -/
def Reading.step? (r : Reading) : Option Reading :=
  let f := r.flags
  let literal (expr? : Option Expr) (rest : List Char) : Option Reading :=
    expr?.map fun e => r.add ⟨e, 0, true⟩ rest
  match r.rest with
  | [] => some r
  | '(' :: rest => r.openGroup? rest
  | ')' :: rest => r.closeGroup? rest
  | '|' :: rest =>
    some { r with
      rest
      group := { r.group with
        alternatives := .sequence r.group.items.reverse :: r.group.alternatives, items := [] } }
  | '[' :: rest => do
    let (o, cs) ← f.openClass? rest
    let (s, height, rest) ← f.readClass? rest.length o [] cs
    return r.add ⟨.ofSet s, height, true⟩ rest
  | '?' :: rest => r.repeat? 0 (some 1) rest
  | '*' :: rest => r.repeat? 0 none rest
  | '+' :: rest => r.repeat? 1 none rest
  | '\x7b' :: _ => do
    let (min, max, rest) ← f.readCount? r.rest
    r.repeat? min max (f.next rest)
  | '\\' :: rest => do
    let (atom, rest) ← f.readEscape? rest
    literal (f.atomExpr? atom) rest
  | '.' :: rest => literal f.dot? rest
  | '^' :: rest =>
    literal (some (.look (if !f.multiLine then .textStart
      else if f.anyLineEnd then .anyLineStart else .lineStart))) rest
  | '$' :: rest =>
    literal (some (.look (if !f.multiLine then .textEnd
      else if f.anyLineEnd then .anyLineEnd else .lineEnd))) rest
  | c :: rest => literal (f.charExpr? c false) rest

/-- The greatest depth to which groups, repetitions, sequences, choices and classes may nest. -/
def nestLimit : Nat := 250

/-- Reads on up to the end of the source. -/
def Reading.finish? : Nat → Reading → Option Expr
  | fuel, r =>
    let r := { r with rest := r.flags.skip r.rest }
    if r.rest.isEmpty then
      let body := r.group.contents
      if r.outer.isEmpty && body.height ≤ nestLimit then some body.expr else none
    else
      match fuel with
      | 0 => none
      | fuel + 1 => r.step?.bind (Reading.finish? fuel)

/-- The expression that a source stands for under the flags `f`, if it is one. -/
def Expr.parse? (f : Flags) (source : String) : Option Expr :=
  Reading.finish? source.length ⟨source.toList, f, ⟨f, none, [], []⟩, [], 0, []⟩

end Tinct.Regex
