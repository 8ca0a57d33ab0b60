import Tinct.Entries
import Tinct.Regex.Basic
import Tinct.Text.Words
import Tinct.Token

/-!
# Keyword tables

A keyword table gives words a category and a weight. Its lists are words with white space
between; `word|5` has the weight 5. Other words weigh 1, but words common to most languages weigh
0, so that they are classified and do not count.

* `KeywordTable.add`: adds a list of words; a word that is there is replaced;
* `KeywordTable.lookup`: the entry of a word, which has to match as a whole.
-/

namespace Tinct

/-- What a table knows about a word. -/
structure Keyword where
  category : Scope
  weight : Nat
deriving DecidableEq, Repr

/-- Words with what is known about them. If case is ignored, words are kept in lower case. -/
structure KeywordTable where
  ignoreCase : Bool
  entries : Entries Keyword := []
  /-- Picks the candidates out of a text, in place of the grammar's own rule. -/
  pattern : Option Regex := none
deriving Repr

/-- What is wrong with an entry of a list of words. -/
inductive KeywordError where
  | badWeight (entry : String)
  | noSpelling (entry : String)
deriving DecidableEq, Repr

namespace KeywordError

def message : KeywordError → String
  | badWeight entry => "invalid keyword weight in `" ++ entry ++ "`"
  | noSpelling entry => "keyword entry `" ++ entry ++ "` has no spelling"

end KeywordError

/-- Words that weigh nothing unless a list says so. -/
def commonWords : List String :=
  ["of", "and", "for", "in", "not", "or", "if", "then", "parent", "list", "value"]

/-- The greatest number that fits 32 bits: the bound of weights and of relevance. -/
def maxWeight : Nat := Nat.pow 2 32 - 1

/-- The number that decimal digits stand for, with a plus sign in front or not. -/
def readWeight? (cs : List Char) : Option Nat :=
  let digits := if cs.head? = some '+' then cs.drop 1 else cs
  if digits.isEmpty || !digits.all Char.isDigit then none
  else
    let n := digits.foldl (fun n d => n * 10 + (d.toNat - 48)) 0
    if n ≤ maxWeight then some n else none

namespace KeywordTable

/-- A word as the table keeps it. -/
def fold (t : KeywordTable) (word : String) : String :=
  if t.ignoreCase then Unicode.lowercase word else word

/-- The spelling and the weight of an entry of a list. -/
def readEntry (entry : String) : Except KeywordError (String × Nat) :=
  let cs := entry.toList
  let spelling := cs.takeWhile (· != '|')
  let weight : Except KeywordError Nat :=
    match cs.dropWhile (· != '|') with
    | _ :: digits =>
      match readWeight? digits with
      | some n => .ok n
      | none => .error (.badWeight entry)
    | [] => .ok (if commonWords.contains (Unicode.lowercase entry) then 0 else 1)
  weight.bind fun n =>
    if spelling.isEmpty then .error (.noSpelling entry) else .ok (.ofList spelling, n)

/-- Adds entries up to the first one that is wrong, which is reported. -/
def addEntries (category : Scope) (t : KeywordTable) :
    List String → KeywordTable × Option KeywordError
  | [] => (t, none)
  | entry :: rest =>
    match readEntry entry with
    | .error e => (t, some e)
    | .ok (word, weight) =>
      let entries := t.entries.put (t.fold word) ⟨category, weight⟩
      addEntries category { t with entries } rest

/-- Adds a list of words under a category. -/
def add (t : KeywordTable) (category : Scope) (words : String) :
    KeywordTable × Option KeywordError :=
  t.addEntries category (splitWords words)

def lookup (t : KeywordTable) (word : String) : Option Keyword := t.entries.get? (t.fold word)

def size (t : KeywordTable) : Nat := t.entries.length

def isEmpty (t : KeywordTable) : Bool := t.entries.isEmpty

end KeywordTable
end Tinct
