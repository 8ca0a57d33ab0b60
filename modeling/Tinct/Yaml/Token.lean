import Tinct.Yaml.Lexeme

/-!
# Tokens of YAML

`Token.scan?` cuts a YAML text into tokens. Indentation becomes tokens too: a block collection
starts where a key or an entry stands further right than the collection around it, and ends where
the text goes back to the left. What makes a scalar a key is the colon behind it, so a place where
a key may have started is remembered (`PendingKey`) until the colon comes or cannot come any more.
-/

namespace Tinct.Yaml

inductive Token where
  | version (major minor : Nat)
  /-- A handle for tags and the beginning that it stands for. -/
  | tagPrefix (t : TagText)
  | documentStart
  | documentEnd
  | blockListStart
  | blockTableStart
  | blockEnd
  | flowListStart
  | flowListEnd
  | flowTableStart
  | flowTableEnd
  | blockEntry
  | flowEntry
  | key
  | value
  | alias (name : String)
  | anchor (name : String)
  | tag (t : TagText)
  | scalar (style : Style) (text : String)
deriving DecidableEq, Repr

/-- A place where a key may have started. -/
structure PendingKey where
  /-- Nothing else can stand there. -/
  required : Bool
  /-- How many tokens there are in front. -/
  place : Nat
  index : Nat
  line : Nat
  column : Nat
deriving Repr

/-- A scan under way. -/
structure Scan where
  cursor : Cursor
  tokens : Array Token := #[]
  /-- One more than the column of the innermost block collection; 0 outside of them. -/
  margin : Nat := 0
  /-- The margins of the block collections around it, innermost first. -/
  margins : List Nat := []
  /-- The pending key of the innermost flow collection, or else of the block around. -/
  pending : Option PendingKey := none
  /-- Those of the collections around it, innermost first; none in the block context. -/
  outerPending : List (Option PendingKey) := []
  /-- Whether a key may start at the position. -/
  keyAllowed : Bool := true

namespace Scan

def inFlow (s : Scan) : Bool := !s.outerPending.isEmpty

/-- Adds a token that ends at the cursor `c`. -/
def emit (t : Token) (c : Cursor) (s : Scan) : Scan :=
  { s with tokens := s.tokens.push t, cursor := c }

/-- Adds a token of `n` characters. -/
def mark (t : Token) (n : Nat) (s : Scan) : Scan := s.emit t (s.cursor.advance n)

/-- Passes blanks, comments and line breaks. Tabs may not stand where a key may; a mark for the
order of bytes may start a line. -/
def skipSpace : Nat → Scan → Scan
  | 0, s => s
  | fuel + 1, s =>
    let blank (c : Char) : Bool := c == ' ' || ((s.inFlow || !s.keyAllowed) && c == '\t')
    let c := (s.cursor.skipByteOrderMark.skipWhile blank).skipComment
    if c.breakLength = 0 then { s with cursor := c }
    else skipSpace fuel { s with cursor := c.takeBreak.2, keyAllowed := s.keyAllowed || !s.inFlow }

/-- Block collections end as far as they stand right of `margin`. -/
def closeTo (margin : Nat) (s : Scan) : Scan :=
  if s.inFlow then s else go s.margins s
where
  go : List Nat → Scan → Scan
    | [], s => s
    | m :: ms, s =>
      if margin < s.margin then
        go ms { s with tokens := s.tokens.push .blockEnd, margin := m, margins := ms }
      else s

/-- A block collection starts at a column if that is right of the innermost one; its token comes
behind the first `place` ones. -/
def openAt (column place : Nat) (t : Token) (s : Scan) : Scan :=
  if !s.inFlow && s.margin < column + 1 then
    { s with
      margins := s.margin :: s.margins, margin := column + 1
      tokens := s.tokens.insertIdxIfInBounds place t }
  else s

/-- Forgets a pending key, unless it is required. -/
def dropKey? (s : Scan) : Option Scan :=
  if s.pending.any (·.required) then none else some { s with pending := none }

/-- Where a key may start, remembers that it may. -/
def saveKey? (s : Scan) : Option Scan :=
  if s.keyAllowed then do
    let s ← s.dropKey?
    let c := s.cursor
    let required := !s.inFlow && s.margin == c.column + 1
    return { s with pending := some ⟨required, s.tokens.size, c.index, c.line, c.column⟩ }
  else some s

/-- How many characters behind its start a key has its colon at most. -/
def keyLimit : Nat := 1024

/-- Forgets a pending key for which a colon comes too late: it has to follow in the same line. -/
def expire? (c : Cursor) : Option PendingKey → Option (Option PendingKey)
  | none => some none
  | some k =>
    if k.line < c.line || k.index + keyLimit < c.index then
      if k.required then none else some none
    else some (some k)

/-- Forgets all pending keys for which a colon comes too late. -/
def expireKeys? (s : Scan) : Option Scan := do
  return { s with
    pending := ← expire? s.cursor s.pending
    outerPending := ← s.outerPending.mapM (expire? s.cursor) }

/-- A directive, from its mark on. -/
def directive? (s : Scan) : Option Scan := do
  let s ← (s.closeTo 0).dropKey?
  let (name, c) := s.cursor.skip.takeWhile isNameChar
  if name.isEmpty || !wordEnds c.rest then none
  else
    let (t, c) ← match String.ofList name with
      | "YAML" => (versionDirective? c).map fun (v, c) => (Token.version v.1 v.2, c)
      | "TAG" => (tagDirective? c).map fun (t, c) => (Token.tagPrefix t, c)
      | _ => none
    let c := (c.skipWhile isBlank).skipComment
    if c.rest.isEmpty || c.breakLength ≠ 0 then
      return { s.emit t c.takeBreak.2 with keyAllowed := false }
    else none

/-- The start or end of a document. -/
def documentMark? (t : Token) (s : Scan) : Option Scan := do
  let s ← (s.closeTo 0).dropKey?
  return { s.mark t 3 with keyAllowed := false }

def flowStart? (t : Token) (s : Scan) : Option Scan := do
  let s ← s.saveKey?
  return { s.mark t 1 with
    pending := none, outerPending := s.pending :: s.outerPending, keyAllowed := true }

def flowEnd? (t : Token) (s : Scan) : Option Scan := do
  let s := { ← s.dropKey? with keyAllowed := false }
  match s.outerPending with
  | [] => return s.mark t 1
  | k :: ks => return { s.mark t 1 with pending := k, outerPending := ks }

def flowItem? (s : Scan) : Option Scan := do
  return { (← s.dropKey?).mark .flowEntry 1 with keyAllowed := true }

/-- An entry of a block list. -/
def blockItem? (s : Scan) : Option Scan :=
  if !s.inFlow && !s.keyAllowed then none
  else do
    let s ← (s.openAt s.cursor.column s.tokens.size .blockListStart).dropKey?
    return { s.mark .blockEntry 1 with keyAllowed := true }

/-- A key that is marked as one. -/
def key? (s : Scan) : Option Scan :=
  if !s.inFlow && !s.keyAllowed then none
  else do
    let s ← (s.openAt s.cursor.column s.tokens.size .blockTableStart).dropKey?
    return { s.mark .key 1 with keyAllowed := !s.inFlow }

/-- A value, whose key may be pending. -/
def value? (s : Scan) : Option Scan :=
  match s.pending with
  | some k =>
    let s := { s with tokens := s.tokens.insertIdxIfInBounds k.place .key, pending := none }
    let s := s.openAt k.column k.place .blockTableStart
    some { s.mark .value 1 with keyAllowed := false }
  | none =>
    if !s.inFlow && !s.keyAllowed then none
    else
      let s := s.openAt s.cursor.column s.tokens.size .blockTableStart
      some { s.mark .value 1 with keyAllowed := !s.inFlow }

/-- A token that a key may start with. -/
def keyStart? (read? : Cursor → Option (Token × Cursor)) (s : Scan) : Option Scan := do
  let s ← s.saveKey?
  let (t, c) ← read? s.cursor
  return { s.emit t c with keyAllowed := false }

def plainScalar? (s : Scan) : Option Scan := do
  let s ← s.saveKey?
  let (text, c, broken) ←
    plain? s.inFlow s.margin (s.cursor.rest.length + 1) [] [] false s.cursor
  return { s.emit (.scalar .plain text) c with keyAllowed := broken }

def quotedScalar? (quote : Char) : Scan → Option Scan :=
  keyStart? fun c => do
    let (text, c) ← quoted? quote (c.rest.length + 1) [] c.skip
    return (.scalar .quoted text, c)

def blockScalar? (style : Style) (s : Scan) : Option Scan := do
  let s ← s.dropKey?
  let (text, c) ← block? (style == .folded) s.margin s.cursor.skip
  return { s.emit (.scalar style text) c with keyAllowed := true }

/-- A character that cannot start a plain scalar, unless it is one of `-?:` in front of a word. -/
def isMark (c : Char) : Bool :=
  ['-', '?', ':', ',', '[', ']', '\x7b', '\x7d', '#', '&', '*', '!', '|', '>', '\'', '"', '%', '@',
    '\x60'].contains c

/-- The token at the position, where one stands. -/
def token? (s : Scan) : Option Scan :=
  let c := s.cursor
  match c.rest with
  | [] => none
  | x :: rest =>
    let alone := wordEnds rest
    if c.column == 0 && x == '%' then s.directive?
    else if c.atDocumentMark then
      s.documentMark? (if x == '-' then .documentStart else .documentEnd)
    else if x == '[' then s.flowStart? .flowListStart
    else if x == '\x7b' then s.flowStart? .flowTableStart
    else if x == ']' then s.flowEnd? .flowListEnd
    else if x == '\x7d' then s.flowEnd? .flowTableEnd
    else if x == ',' then s.flowItem?
    else if x == '-' && alone then s.blockItem?
    else if x == '?' && (s.inFlow || alone) then s.key?
    else if x == ':' && (s.inFlow || alone) then s.value?
    else if x == '*' then
      s.keyStart? fun c => (anchorName? c.skip).map fun (name, c) => (.alias name, c)
    else if x == '&' then
      s.keyStart? fun c => (anchorName? c.skip).map fun (name, c) => (.anchor name, c)
    else if x == '!' then s.keyStart? fun c => (tag? s.inFlow c).map fun (t, c) => (.tag t, c)
    else if x == '|' && !s.inFlow then s.blockScalar? .literal
    else if x == '>' && !s.inFlow then s.blockScalar? .folded
    else if x == '\'' || x == '"' then s.quotedScalar? x
    else if (!isSpace x && !isMark x) || (x == '-' && !rest.head?.any isBlank) ||
        (!s.inFlow && (x == '?' || x == ':') && !alone) then
      s.plainScalar?
    else none

/-- The tokens up to the end of the text. -/
def tokens? : Nat → Scan → Option (List Token)
  | 0, _ => none
  | fuel + 1, s => do
    let s := s.skipSpace (s.cursor.rest.length + 1)
    let s := (← s.expireKeys?).closeTo (s.cursor.column + 1)
    if s.cursor.rest.isEmpty then return (← (s.closeTo 0).dropKey?).tokens.toList
    else tokens? fuel (← s.token?)

end Scan

/-- A character that may stand in a text. -/
def isAllowed (c : Char) : Bool :=
  let n := c.toNat
  n == 0x9 || n == 0xA || n == 0xD || (0x20 ≤ n && n ≤ 0x7E) || n == 0x85 ||
    (0xA0 ≤ n && n ≤ 0xFFFD) || 0x10000 ≤ n

/-- The tokens of a text. -/
def Token.scan? (text : String) : Option (List Token) :=
  let cs := text.toList
  if cs.all isAllowed then Scan.tokens? (cs.length + 1) { cursor := { rest := cs } } else none

end Tinct.Yaml
