import Tinct.Render.Listing

/-!
# Checks of a tokenization

A `Check` says what the tokens and regions of a text should be, for the tests of a grammar.
`Check.run` tries one, and a `CheckFailure` says what is different.
-/

namespace Tinct

namespace Closure

def label : Closure → String
  | matched => "Matched"
  | withParent => "WithParent"
  | byChild => "ByChild"
  | endOfInput => "EndOfInput"
  | illegal => "Illegal"

end Closure

/-- What is asked of a leaf token. -/
inductive LeafCheck where
  | text (s : String)
  | scope (name : String)
  | unscoped
  | kind (k : TokenKind)
  | span (s : Span)
deriving DecidableEq, Repr

/-- What is asked of a region. -/
inductive RegionCheck where
  | text (s : String)
  | span (s : Span)
  | closure (c : Closure)
deriving DecidableEq, Repr

/-- What is asked of the result of a scan. -/
inductive Check where
  /-- The leaf tokens follow one another through the whole text. -/
  | coversInput
  /-- Each region that is left was the last one entered. -/
  | wellNested
  | leafCount (n : Nat)
  | leaf (n : Nat) (checks : List LeafCheck)
  /-- The first leaf with this text. -/
  | leafText (text : String) (checks : List LeafCheck)
  /-- All leaves with this text, of which there is one. -/
  | everyLeafText (text scope : String)
  /-- The first region of this scope to close. -/
  | region (scope : String) (checks : List RegionCheck)
  | regionCount (scope : String) (n : Nat)
  | noRegion (scope : String)
  | relevance (n : Nat)
deriving Repr

/-- Why a check fails. -/
inductive CheckFailure where
  /-- Two values should be the same, and are these. -/
  | mismatch (context left right : String)
  /-- What is asked about is not there. -/
  | missing (context : String)
  /-- A token does not stand in the text. -/
  | outside (fault : String)
deriving DecidableEq, Repr

namespace CheckFailure

def message : CheckFailure → String
  | mismatch context left right =>
    "assertion \x60left == right\x60 failed: " ++ context ++ "\n  left: " ++ left ++
      "\n right: " ++ right
  | missing context => context
  | outside fault => fault

end CheckFailure

namespace Check

/-! ## Values as they are shown -/

def showNat (n : Nat) : String := toString n

def showOption (f : α → String) : Option α → String
  | none => "None"
  | some a => "Some(" ++ f a ++ ")"

def showSpan (s : Span) : String := toString s.start ++ ".." ++ toString s.stop

def showMode (id : Nat) : String := "#" ++ toString id

def showToken (t : Token) : String :=
  "Token \x7b start: " ++ toString t.span.start ++ ", end: " ++ toString t.span.stop ++
    ", scope: " ++ showOption id t.scopeName ++ ", kind: " ++ t.kind.label ++ " \x7d"

/-! ## Parts of the text -/

/-- Why the byte offset `i`, an `edge` of a part of `s`, is inside a character, if it is. -/
def insideChar? (s edge : String) (i : Nat) : Option String :=
  let offsets := (Text.ofString s).offsets.toList
  if offsets.contains i then none
  else
    let start := (offsets.takeWhile (· ≤ i)).getLastD 0
    let stop := (offsets.find? (i < ·)).getD s.utf8ByteSize
    let c := (slice s ⟨start, stop⟩).toList.headD ' '
    some (edge ++ " byte index " ++ toString i ++ " is not a char boundary; it is inside '" ++
      quotedChar c ++ "' (bytes " ++ showSpan ⟨start, stop⟩ ++ " of string)")

/-- Why there is no part of `s` at `span`, if there is none. -/
def outside? (s : String) (span : Span) : Option String :=
  let size := s.utf8ByteSize
  let beyond (edge : String) (i : Nat) :=
    some (edge ++ " byte index " ++ toString i ++ " is out of bounds for string of length " ++
      toString size)
  if size < span.start then beyond "start" span.start
  else if size < span.stop then beyond "end" span.stop
  else if span.stop < span.start then
    some ("byte range starts at " ++ toString span.start ++ " but ends at " ++ toString span.stop)
  else (insideChar? s "start" span.start).or (insideChar? s "end" span.stop)

/-- The part of a text at `span`. -/
def textAt (source : String) (span : Span) : Except CheckFailure String :=
  match outside? source span with
  | none => .ok (slice source span)
  | some fault => .error (.outside fault)

/-- The leaves with their scopes, in one line. -/
def summary (t : Tokenization) (source : String) : Except CheckFailure String := do
  let parts ← t.tokens.mapM fun leaf => do
    return quoted (← textAt source leaf.span) ++ ":" ++ leaf.scopeName.getD "-"
  return " ".intercalate parts

/-! ## Checks -/

def expectEq [DecidableEq α] (f : α → String) (context : String) (left right : α) :
    Except CheckFailure Unit :=
  if left = right then .ok () else .error (.mismatch context (f left) (f right))

def runLeaf (source context : String) (t : Token) (c : LeafCheck) : Except CheckFailure Unit := do
  match c with
  | .text s => expectEq quoted (context ++ ": unexpected text") (← textAt source t.span) s
  | .scope name =>
    if t.scopeName ≠ some name then
      expectEq (showOption quoted)
        (context ++ ": unexpected scope for " ++ quoted (← textAt source t.span))
        t.scopeName (some name)
  | .unscoped =>
    if t.scopeName ≠ none then
      expectEq (showOption quoted)
        (context ++ ": expected no scope for " ++ quoted (← textAt source t.span))
        t.scopeName none
  | .kind k => expectEq TokenKind.label (context ++ ": unexpected kind") t.kind k
  | .span s => expectEq showSpan (context ++ ": unexpected span") t.span s

def runRegion (source context : String) (r : Region) (c : RegionCheck) :
    Except CheckFailure Unit := do
  match c with
  | .text s => expectEq quoted (context ++ ": unexpected region text") (← textAt source r.span) s
  | .span s => expectEq showSpan (context ++ ": unexpected span") r.span s
  | .closure k => expectEq Closure.label (context ++ ": unexpected closure") r.closure k

/-- Whether each leaf starts where the one before it ends; the first one at `offset`. -/
def runCoverage (offset : Nat) : List Token → Except CheckFailure Unit
  | [] => .ok ()
  | t :: ts => do
    expectEq showNat ("tokens: gap or overlap before token " ++ showToken t) t.span.start offset
    if t.span.stop ≤ t.span.start then
      throw (.missing ("tokens: empty token " ++ showToken t))
    runCoverage t.span.stop ts

/-- Whether each exit is that of the innermost open mode. -/
def runNesting (opened : List Nat) : List Event → Except CheckFailure Unit
  | [] =>
    if opened.isEmpty then .ok ()
    else
      let modes := ", ".intercalate (opened.reverse.map showMode)
      .error (.missing ("tokens: regions left open: [" ++ modes ++ "]"))
  | .enter mode _ _ :: es => runNesting (mode :: opened) es
  | .token _ :: es => runNesting opened es
  | .exit mode _ _ _ :: es => do
    let context := "tokens: exit of " ++ showMode mode ++ " does not match the open region"
    expectEq (showOption showMode) context opened.head? (some mode)
    runNesting opened.tail es

/-- The first leaf with a text. -/
def firstLeaf? (source text : String) : List Token → Except CheckFailure (Option Token)
  | [] => .ok none
  | t :: ts => do
    if (← textAt source t.span) = text then return some t else firstLeaf? source text ts

/-- Checks the scope of every leaf with a text; says whether there is one. -/
def runEvery (source text scope : String) : List Token → Except CheckFailure Bool
  | [] => .ok false
  | t :: ts => do
    if (← textAt source t.span) = text then
      let context := "tokens: leaf " ++ quoted text ++ " at " ++ toString t.span.start ++
        " has the wrong scope"
      expectEq (showOption quoted) context t.scopeName (some scope)
      let _ ← runEvery source text scope ts
      return true
    else runEvery source text scope ts

def runCount (t : Tokenization) (scope : String) (n : Nat) : Except CheckFailure Unit :=
  let found := (t.regions.filter (·.scopeName == some scope)).length
  expectEq showNat ("tokens: Expected " ++ toString n ++ " " ++ quoted scope ++
    " regions, found " ++ toString found) found n

/-- Tries a check on what a scan made of `source`. -/
def run (t : Tokenization) (source : String) : Check → Except CheckFailure Unit
  | coversInput => do
    let texts ← t.tokens.mapM fun leaf => textAt source leaf.span
    expectEq quoted "tokens: leaf tokens do not reconstruct the input" (String.join texts) source
    runCoverage 0 t.tokens
  | wellNested => runNesting [] t.events
  | leafCount n => do
    let found := t.tokens.length
    if found ≠ n then
      expectEq showNat ("tokens: Expected " ++ toString n ++ " leaf tokens, found " ++
        toString found ++ " (" ++ (← summary t source) ++ ")") found n
  | leaf n checks => do
    match t.tokens[n]? with
    | some token => checks.forM (runLeaf source ("tokens:leaf[" ++ toString n ++ "]") token)
    | none =>
      throw (.missing ("tokens: Leaf index " ++ toString n ++ " out of bounds (" ++
        toString t.tokens.length ++ " leaves: " ++ (← summary t source) ++ ")"))
  | leafText text checks => do
    match ← firstLeaf? source text t.tokens with
    | some token => checks.forM (runLeaf source ("tokens:leaf(" ++ quoted text ++ ")") token)
    | none =>
      throw (.missing ("tokens: no leaf with text " ++ quoted text ++ " (" ++
        (← summary t source) ++ ")"))
  | everyLeafText text scope => do
    if !(← runEvery source text scope t.tokens) then
      throw (.missing ("tokens: no leaf with text " ++ quoted text))
  | region scope checks =>
    match t.regions.find? (·.scopeName == some scope) with
    | some r => checks.forM (runRegion source ("tokens:region(" ++ scope ++ ")") r)
    | none => throw (.missing ("tokens: no region with scope " ++ quoted scope))
  | regionCount scope n => runCount t scope n
  | noRegion scope => runCount t scope 0
  | relevance n => expectEq showNat "tokens: unexpected relevance" t.relevance n

end Check
end Tinct
