import Tinct.Regex.Parser
import Tinct.Yaml.Cursor

/-!
# Lexemes of YAML

The pieces of a YAML text that are more than a mark: scalars in their five styles, names, tags and
directives. Each function takes the position where its piece starts and gives the position behind
it, or nothing if the piece is broken:

* `plain?`: a scalar without quotes, which ends where a mark stands or the indentation goes back;
* `quoted?`: a scalar in single or double quotes;
* `block?`: the indented lines behind `|` or `>`;
* `tag?`, `tagDirective?`, `versionDirective?`.
-/

namespace Tinct.Yaml

/-- How a scalar is written. -/
inductive Style where
  | plain
  | quoted
  | literal
  | folded
deriving DecidableEq, Repr

/-- A mark that stands for itself only outside flow collections. -/
def isFlowMark (c : Char) : Bool :=
  c == ',' || c == '[' || c == ']' || c == '\x7b' || c == '\x7d'

/-! ## Plain scalars -/

/-- The word at the front of a plain scalar. In a flow collection no mark may follow a colon. -/
def plainWord? (flow : Bool) : List Char → Option (List Char)
  | [] => some []
  | c :: cs =>
    if isSpace c then some []
    else if flow && c == ':' && cs.head?.any (fun d => d == '?' || isFlowMark d) then none
    else if (c == ':' && wordEnds cs) || (flow && isFlowMark c) then some []
    else (plainWord? flow cs).map (c :: ·)

/-- Whether a tab stands among the first `margin` columns of a line in the space between two
words; `column` is that of the space's first character, if it stands in a later line. -/
def hasTabIndent (margin : Nat) : Option Nat → List Char → Bool
  | _, [] => false
  | column, c :: cs =>
    if isBreak c then hasTabIndent margin (some 0) cs
    else match column with
      | none => hasTabIndent margin none cs
      | some n => (c == '\t' && n < margin) || hasTabIndent margin (some (n + 1)) cs

/-- A plain scalar from a word on, which `before` and `space` stand in front of: its text, the
position behind it and the space that follows, and whether that space breaks the line (`broken` for
the space in front). -/
def plain? (flow : Bool) (margin : Nat) :
    Nat → (before space : List Char) → (broken : Bool) → Cursor →
      Option (String × Cursor × Bool)
  | 0, before, _, broken, c => some (.ofList before, c, broken)
  | fuel + 1, before, space, broken, c =>
    if c.atDocumentMark || c.rest.head? == some '#' then some (.ofList before, c, broken)
    else do
      let word ← plainWord? flow c.rest
      if word.isEmpty then some (.ofList before, c, broken)
      else
        let before := before ++ space ++ word
        let c := c.advance word.length
        let (space, c) := c.takeWhile isSpace
        if space.isEmpty then some (.ofList before, c, false)
        else if hasTabIndent margin none space then none
        else
          let broken := space.any isBreak
          if !flow && c.column < margin then some (.ofList before, c, broken)
          else plain? flow margin fuel before (fold space) broken c

/-! ## Quoted scalars -/

/-- The number that `n` hexadecimal digits at the front stand for. -/
def hexDigits? : Nat → Nat → List Char → Option Nat
  | 0, value, _ => some value
  | n + 1, value, c :: cs => do hexDigits? n (value * 16 + (← Regex.hexValue? c)) cs
  | _ + 1, _, [] => none

/-- The characters for which a letter behind a backslash stands. -/
def escapeLetters : List (Char × Char) :=
  [('0', '\x00'), ('a', '\x07'), ('b', '\x08'), ('t', '\t'), ('\t', '\t'), ('n', '\n'),
    ('v', '\x0b'), ('f', '\x0c'), ('r', '\r'), ('e', '\x1b'), (' ', ' '), ('"', '"'), ('/', '/'),
    ('\\', '\\'), ('N', '\x85'), ('_', '\xa0'), ('L', '\u2028'), ('P', '\u2029')]

/-- How many digits follow a letter for a number. -/
def escapeWidths : List (Char × Nat) := [('x', 2), ('u', 4), ('U', 8)]

/-- The character for which an escape behind its backslash stands, and the escape's length. -/
def escape? : List Char → Option (Char × Nat)
  | [] => none
  | c :: cs =>
    match escapeLetters.lookup c, escapeWidths.lookup c with
    | some x, _ => some (x, 1)
    | none, some width => do
      let n ← hexDigits? width 0 cs
      if n.isValidChar then some (.ofNat n, width + 1) else none
    | none, none => none

/-- A quoted scalar behind its opening quote, of which `before` has been read, last first. -/
def quoted? (quote : Char) : Nat → List Char → Cursor → Option (String × Cursor)
  | 0, _, _ => none
  | fuel + 1, before, c =>
    if c.atDocumentMark then none
    else match c.rest with
      | [] => none
      | x :: rest =>
        if isSpace x then
          let (space, c) := c.takeWhile isSpace
          quoted? quote fuel ((fold space).reverse ++ before) c
        else if x == quote then
          if quote == '\'' && rest.head? == some '\'' then
            quoted? quote fuel ('\'' :: before) (c.advance 2)
          else some (.ofList before.reverse, c.skip)
        else if quote == '"' && x == '\\' then
          if rest.head?.any isBreak then
            let (space, c) := c.skip.takeBreak.2.takeWhile isSpace
            quoted? quote fuel ((breaks space).reverse ++ before) c
          else do
            let (y, length) ← escape? rest
            quoted? quote fuel (y :: before) (c.advance (length + 1))
        else quoted? quote fuel (x :: before) c.skip

/-! ## Block scalars -/

/-- What happens to the line breaks at the end of a block scalar. -/
inductive Chomping where
  | strip
  /-- One break stays. -/
  | clip
  | keep
deriving DecidableEq, Repr

def chomping? (c : Cursor) : Option Chomping × Cursor :=
  match c.rest with
  | '+' :: _ => (some .keep, c.skip)
  | '-' :: _ => (some .strip, c.skip)
  | _ => (none, c)

/-- A digit for the indentation, which is not zero. -/
def indentation? (c : Cursor) : Option (Option Nat × Cursor) :=
  match c.rest with
  | d :: _ =>
    if d == '0' then none
    else if d.isDigit then some (some (d.toNat - 48), c.skip)
    else some (none, c)
  | [] => some (none, c)

/-- The settings behind the mark of a block scalar, in either order. -/
def blockHeader? (c : Cursor) : Option (Chomping × Option Nat × Cursor) :=
  match chomping? c with
  | (some chomping, c) => do
    let (indent, c) ← indentation? c
    return (chomping, indent, c)
  | (none, c) => do
    let (indent, c) ← indentation? c
    match indent with
    | some n =>
      let (chomping, c) := chomping? c
      return (chomping.getD .clip, some n, c)
    | none => return (.clip, none, c)

/-- Passes empty lines and the indentation of the line behind them: their breaks, the position, and
the widest indentation on the way. The indentation goes up to `indent`, or as far as there are
blanks. -/
def emptyLines? (indent : Option Nat) :
    Nat → (widest : Nat) → Cursor → Option (List Char × Cursor × Nat)
  | 0, widest, c => some ([], c, widest)
  | fuel + 1, widest, c =>
    let spaces := (c.rest.takeWhile (· == ' ')).length
    let c := c.advance (match indent with | some n => min spaces (n - c.column) | none => spaces)
    let widest := max widest c.column
    if indent.all (c.column < ·) && c.rest.head? == some '\t' then none
    else
      match c.takeBreak with
      | ([], _) => some ([], c, widest)
      | (line, c) => do
        let (lines, c, widest) ← emptyLines? indent fuel widest c
        return (line ++ lines, c, widest)

/-- The lines of a block scalar with `before` in front, of which `last` is the break of the last
line, `blank` whether that line starts with a blank, and `empty` the breaks of empty lines. -/
def blockLines? (folds : Bool) (chomping : Chomping) (indent : Nat) :
    Nat → (before last empty : List Char) → (blank : Bool) → Cursor →
      Option (String × Cursor)
  | 0, before, _, _, _, c => some (.ofList before, c)
  | fuel + 1, before, last, empty, blank, c =>
    match c.rest with
    | x :: _ =>
      if c.column == indent then do
        let joined :=
          if folds && last == ['\n'] && !blank && !isBlank x then
            if empty.isEmpty then [' '] else empty
          else last ++ empty
        let (line, c) := c.takeWhile (!isBreak ·)
        let (last, c) := c.takeBreak
        let (empty, c, _) ← emptyLines? (some indent) (c.rest.length + 1) 0 c
        blockLines? folds chomping indent fuel (before ++ joined ++ line) last empty (isBlank x) c
      else finish before last empty c
    | [] => finish before last empty c
where
  finish (before last empty : List Char) (c : Cursor) : Option (String × Cursor) :=
    match chomping with
    | .strip => some (.ofList before, c)
    | .clip => some (.ofList (before ++ last), c)
    | .keep => some (.ofList (before ++ last ++ empty), c)

/-- The block scalar behind its mark. The lines are indented by more than the collection around
it, whose margin is `margin`. -/
def block? (folds : Bool) (margin : Nat) (c : Cursor) : Option (String × Cursor) := do
  let (chomping, increment, c) ← blockHeader? c
  let c := (c.skipWhile isBlank).skipComment
  if c.rest.isEmpty || c.breakLength ≠ 0 then
    let c := c.takeBreak.2
    let indent := increment.map (margin - 1 + ·)
    let (empty, c, widest) ← emptyLines? indent (c.rest.length + 1) 0 c
    blockLines? folds chomping (indent.getD (max widest (max margin 1))) (c.rest.length + 1)
      [] [] empty false c
  else none

/-! ## Names, tags and directives -/

/-- The name of an anchor, behind its mark. -/
def anchorName? (c : Cursor) : Option (String × Cursor) :=
  let (name, c) := c.takeWhile isNameChar
  let ends := wordEnds c.rest ||
    c.rest.head?.any fun d => ['?', ':', ',', ']', '\x7d', '%', '@', '\x60'].contains d
  if name.isEmpty || !ends then none else some (.ofList name, c)

/-- A character of a tag; `verbatim` ones may have a few more. -/
def isTagChar (verbatim : Bool) (c : Char) : Bool :=
  isNameChar c ||
    [';', '/', '?', ':', '@', '&', '=', '+', '$', '.', '%', '!', '~', '*', '\'', '(',
      ')'].contains c
    || (verbatim && [',', '[', ']'].contains c)

/-- The bytes of a tag, in which two digits behind `%` stand for one. -/
def tagBytes? : List Char → Option (List UInt8)
  | [] => some []
  | '%' :: a :: b :: cs => do
    let a ← Regex.hexValue? a
    let b ← Regex.hexValue? b
    return (a * 16 + b).toUInt8 :: (← tagBytes? cs)
  | c :: cs => if c == '%' then none else (tagBytes? cs).map (c.toNat.toUInt8 :: ·)

/-- The text of a tag, whose escapes are resolved. -/
def tagText? (verbatim : Bool) (c : Cursor) : Option (String × Cursor) := do
  let (cs, c) := c.takeWhile (isTagChar verbatim)
  return (← String.fromUTF8? ⟨(← tagBytes? cs).toArray⟩, c)

/-- A tag as it is written: under a handle, or in full. -/
structure TagText where
  handle : String
  suffix : String
deriving DecidableEq, Repr

/-- The handle at the position, with a mark at its end if it has one. -/
def tagHandle? (c : Cursor) : Option (String × Cursor) :=
  match c.rest with
  | '!' :: _ =>
    let (name, c) := c.skip.takeWhile isNameChar
    match c.rest with
    | '!' :: _ => some (.ofList ('!' :: name ++ ['!']), c.skip)
    | _ => some (.ofList ('!' :: name), c)
  | _ => none

/-- The tag at the position, which is that of its mark. -/
def tag? (flow : Bool) (c : Cursor) : Option (TagText × Cursor) := do
  let (tag, c) ← match c.rest with
    | '!' :: '<' :: _ =>
      let (suffix, c) ← tagText? true (c.advance 2)
      if suffix.isEmpty || c.rest.head? != some '>' then none else pure (⟨"", suffix⟩, c.skip)
    | _ =>
      let (handle, c') ← tagHandle? c
      if 1 < handle.length && handle.endsWith "!" then
        let (suffix, c) ← tagText? false c'
        if suffix.isEmpty then none else pure (⟨handle, suffix⟩, c)
      else
        let (suffix, c) ← tagText? false c.skip
        pure (if suffix.isEmpty then ⟨"", "!"⟩ else ⟨"!", suffix⟩, c)
  if wordEnds c.rest || (flow && c.rest.head? == some ',') then some (tag, c) else none

/-- The handle and the beginning that it stands for, behind the name of the directive. -/
def tagDirective? (c : Cursor) : Option (TagText × Cursor) := do
  let (handle, c) ← tagHandle? (c.skipWhile isBlank)
  if handle != "!" && !(1 < handle.length && handle.endsWith "!") then none
  else if c.rest.head?.any isBlank then
    let (start, c) ← tagText? true (c.skipWhile isBlank)
    if start.isEmpty || !wordEnds c.rest then none else some (⟨handle, start⟩, c)
  else none

/-- A number of a version. -/
def versionNumber? (c : Cursor) : Option (Nat × Cursor) :=
  let (ds, c) := c.takeWhile Char.isDigit
  if ds.isEmpty || 9 < ds.length then none
  else some (ds.foldl (fun n d => n * 10 + (d.toNat - 48)) 0, c)

/-- The two numbers of a version, behind the name of the directive. -/
def versionDirective? (c : Cursor) : Option ((Nat × Nat) × Cursor) := do
  let (major, c) ← versionNumber? (c.skipWhile isBlank)
  match c.rest with
  | '.' :: _ =>
    let (minor, c) ← versionNumber? c.skip
    return ((major, minor), c)
  | _ => none

end Tinct.Yaml
