import Tinct.Pattern.Basic

/-!
# The elements of a pattern source

The structure of a source that matters before it is a regular expression: where groups open and
close, which of them record, where escapes and classes are, and where the source refers to named
patterns or back to groups.

* `LexemeKind.next?`: the kind and the length of the element at the front of a source;
* `lexFrom`, `lex`: the elements of a source;
* `pairs`: which closing parenthesis belongs to which opening one.
-/

namespace Tinct

/-- The kinds of elements. -/
inductive LexemeKind where
  /-- What a numbered group matched: `\1`. -/
  | backref
  /-- What a named group matched: `\k<name>`. -/
  | namedBackref
  | escape
  | charClass
  | namedOpen
  | lookaheadOpen
  | negativeLookaheadOpen
  | lookbehindOpen
  | uncapturedOpen
  /-- Flags up to the end of the group: `(?i)`. -/
  | flags
  | open
  | close
  | alternate
  /-- A named pattern, in double braces. -/
  | reference
  | brace
  | literal
deriving DecidableEq, Repr

namespace LexemeKind

def opensGroup : LexemeKind → Bool
  | .open | .namedOpen | .uncapturedOpen | .lookaheadOpen | .negativeLookaheadOpen
  | .lookbehindOpen => true
  | _ => false

def isBackreference : LexemeKind → Bool
  | .backref | .namedBackref => true
  | _ => false

def isNameStart (c : Char) : Bool := c.isAlpha || c == '_'

def isNamePart (c : Char) : Bool := c.isAlphanum || c == '_'

/-- The length of the name at the front, 0 if there is none. -/
def nameLength (cs : List Char) : Nat :=
  match cs with
  | c :: _ => if isNameStart c then (cs.takeWhile isNamePart).length else 0
  | [] => 0

/-- The length of a class behind its bracket and what may open it. -/
def classLength? : List Char → Option Nat
  | [] => none
  | ']' :: _ => some 1
  | '\\' :: c :: cs => if c = '\n' then none else (classLength? cs).map (· + 2)
  | _ :: cs => (classLength? cs).map (· + 1)

/-- The class at the front, behind its bracket. A caret, and then a closing bracket, belong to
the members where they stand first. -/
def charClass? (cs : List Char) : Option (LexemeKind × Nat) :=
  let caret := if cs.head? = some '^' then 1 else 0
  let bracket := if (cs.drop caret).head? = some ']' then 1 else 0
  (classLength? (cs.drop (caret + bracket))).map fun n => (.charClass, 1 + caret + bracket + n)

/-- A named group whose angle bracket is `skip` characters behind the parenthesis. Without a name
the parenthesis is a group of its own, but a name has to end. -/
def namedGroup? (skip : Nat) (cs : List Char) : Option (LexemeKind × Nat) :=
  match nameLength cs with
  | 0 => some (.open, 1)
  | n => if (cs.drop n).head? = some '>' then some (.namedOpen, skip + n + 2) else none

def isFlag (c : Char) : Bool := c.isAlpha || c == '-'

/-- A group with flags, behind the question mark. Flags that neither a colon nor a parenthesis
follows belong to the parenthesis in front of them, but a `P` alone does not. -/
def flagGroup? (cs : List Char) : Option (LexemeKind × Nat) :=
  match (cs.takeWhile isFlag).length, cs.dropWhile isFlag with
  | n, ':' :: _ => some (.uncapturedOpen, n + 3)
  | 0, _ => some (.open, 1)
  | n, ')' :: _ => some (.flags, n + 3)
  | 1, _ => if cs.head? = some 'P' then some (.open, 1) else some (.open, 3)
  | n, _ => some (.open, n + 2)

/-- What an opening parenthesis opens, behind it. -/
def group? : List Char → Option (LexemeKind × Nat)
  | '?' :: '=' :: _ => some (.lookaheadOpen, 3)
  | '?' :: '!' :: _ => some (.negativeLookaheadOpen, 3)
  | '?' :: '<' :: '=' :: _ | '?' :: '<' :: '!' :: _ => some (.lookbehindOpen, 4)
  | '?' :: '<' :: cs => namedGroup? 2 cs
  | '?' :: 'P' :: '<' :: cs => namedGroup? 3 cs
  | '?' :: cs => flagGroup? cs
  | _ => some (.open, 1)

def isPlain (c : Char) : Bool := !"\\[()\x7b|".toList.contains c

/-- The kind and the length of the element at the front of a source. -/
def next? : List Char → Option (LexemeKind × Nat)
  | [] => none
  | '\\' :: [] => none
  | '\\' :: 'k' :: '<' :: cs =>
    let n := nameLength cs
    if n ≠ 0 ∧ (cs.drop n).head? = some '>' then some (.namedBackref, n + 4) else none
  | '\\' :: c :: cs =>
    if c = 'k' then none
    else if c.isDigit ∧ c ≠ '0' then some (.backref, 2 + (cs.takeWhile Char.isDigit).length)
    else some (.escape, 2)
  | '[' :: cs => charClass? cs
  | '(' :: cs => group? cs
  | ')' :: _ => some (.close, 1)
  | '|' :: _ => some (.alternate, 1)
  | '\x7b' :: '\x7b' :: cs =>
    match nameLength cs with
    | 0 => some (.brace, 1)
    | n => if (cs.drop n).take 2 = ['\x7d', '\x7d'] then some (.reference, n + 4) else none
  | '\x7b' :: _ => some (.brace, 1)
  | _ :: cs => some (.literal, 1 + (cs.takeWhile isPlain).length)

end LexemeKind

/-- An element of a source. -/
structure Lexeme where
  kind : LexemeKind
  text : List Char
deriving DecidableEq, Repr

namespace Lexeme

/-- The name that a reference or a named backreference holds. -/
def name (l : Lexeme) : String :=
  match l.kind with
  | .reference => .ofList ((l.text.drop 2).take (l.text.length - 4))
  | .namedBackref => .ofList ((l.text.drop 3).take (l.text.length - 4))
  | _ => .ofList l.text

/-- The source that elements make up. -/
def join (ls : List Lexeme) : String := .ofList (ls.flatMap (·.text))

end Lexeme

/-- The elements of the rest of a source, or the number of characters in front of what is none;
`before` of them have been read. -/
def lexFrom : Nat → Nat → List Char → Except Nat (List Lexeme)
  | _, _, [] => .ok []
  | 0, before, _ => .error before
  | fuel + 1, before, cs =>
    match LexemeKind.next? cs with
    | none => .error before
    | some (kind, n) => do
      let rest ← lexFrom fuel (before + n) (cs.drop n)
      return ⟨kind, cs.take n⟩ :: rest

/-- The elements of a source. -/
def lex (source : String) : Except PatternError (List Lexeme) :=
  let cs := source.toList
  match lexFrom cs.length 0 cs with
  | .ok ls => .ok ls
  | .error before =>
    .error (.badSyntax ((cs.take before).foldl (fun n c => n + c.utf8Size) 0) source)

/-- The opening and closing parentheses of a source in pairs, by position among its elements;
`waiting` holds those still open, innermost first. -/
def pairsFrom : Nat → List Nat → List Lexeme → Except PatternError (List (Nat × Nat))
  | _, [], [] => .ok []
  | _, _ :: _, [] => .error .unclosedGroup
  | i, waiting, l :: ls =>
    if l.kind.opensGroup then pairsFrom (i + 1) (i :: waiting) ls
    else if l.kind = .close then
      match waiting with
      | [] => .error .unbalancedClose
      | o :: waiting => do return (o, i) :: (← pairsFrom (i + 1) waiting ls)
    else pairsFrom (i + 1) waiting ls

def pairs (ls : List Lexeme) : Except PatternError (List (Nat × Nat)) := pairsFrom 0 [] ls

/-- Whether an element of a kind stands outside every group; `depth` groups are open. A closing
parenthesis without a partner closes nothing. -/
def hasOutside (kind : LexemeKind) : Nat → List Lexeme → Bool
  | _, [] => false
  | depth, l :: ls =>
    if l.kind.opensGroup then hasOutside kind (depth + 1) ls
    else if l.kind = .close then hasOutside kind (depth - 1) ls
    else (l.kind = kind && depth = 0) || hasOutside kind depth ls

end Tinct
