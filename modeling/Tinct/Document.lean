import Tinct.Json.Value

/-!
# Documents

What a grammar file holds, whether it is written in JSON or in YAML. The two differ in scalars: a
JSON scalar is of one type, while a plain YAML scalar such as `12` serves as a text or as a number,
whichever is asked for. Where a value may be of several shapes, its type has to be settled before
it is looked at: `Document.settle?`. A list of JSON and a settled one serve as a record too, a list
of YAML does not.
-/

namespace Tinct

/-- The settled type of a scalar. -/
inductive Atom where
  | null
  | bool (b : Bool)
  | int (n : Int)
  | real
  | text (s : String)
deriving DecidableEq, Repr

/-- A scalar by what it can serve as. -/
structure Scalar where
  text? : Option String := none
  bool? : Option Bool := none
  nat? : Option Nat := none
  /-- Whether it stands for nothing; nothing is said of a scalar that is tagged as null and does not
  look so. -/
  null? : Option Bool := some false
  /-- A scalar without any characters: an empty list or table too. -/
  isBlank : Bool := false
  /-- Its type once settled, if it has one. -/
  atom? : Option Atom
deriving DecidableEq, Repr

namespace Scalar

/-- A scalar that serves as what it is. -/
def ofAtom (a : Atom) : Scalar :=
  match a with
  | .null => { null? := some true, atom? := some a }
  | .bool b => { bool? := some b, atom? := some a }
  | .int n => { nat? := if 0 ≤ n then some n.toNat else none, atom? := some a }
  | .real => { atom? := some a }
  | .text s => { text? := some s, atom? := some a }

end Scalar

/-- A document or a part of one. -/
inductive Document where
  | scalar (s : Scalar)
  /-- A list; where a record is asked for, one that is `positional` serves as the values of its
  fields in order. -/
  | list (items : List Document) (positional : Bool)
  | table (fields : List (Document × Document))
  /-- A value with a type of its own, which no grammar asks for: it serves as its content where a
  shape is asked for, and cannot be settled. -/
  | tagged (content : Document)
deriving Repr, Inhabited

namespace Document

mutual

/-- The document with the types of its scalars settled, if all have one. -/
def settle? : Document → Option Document
  | .scalar s => s.atom?.map fun a => .scalar (.ofAtom a)
  | .list items _ => (settleItems items).map (.list · true)
  | .table fields => (settleFields fields).map .table
  | .tagged _ => none

def settleItems : List Document → Option (List Document)
  | [] => some []
  | d :: ds => do return (← d.settle?) :: (← settleItems ds)

def settleFields : List (Document × Document) → Option (List (Document × Document))
  | [] => some []
  | (k, v) :: fs => do return (← k.settle?, ← v.settle?) :: (← settleFields fs)

end

mutual

/-- How deep lists and tables nest. -/
def depth : Document → Nat
  | .scalar _ => 0
  | .list items _ => depthItems items + 1
  | .table fields => depthFields fields + 1
  | .tagged d => d.depth + 1

def depthItems : List Document → Nat
  | [] => 0
  | d :: ds => max d.depth (depthItems ds)

def depthFields : List (Document × Document) → Nat
  | [] => 0
  | (_, v) :: fs => max v.depth (depthFields fs)

end

mutual

/-- A JSON value as a document. -/
def ofJson : Json → Document
  | .null => .scalar (.ofAtom .null)
  | .bool b => .scalar (.ofAtom (.bool b))
  | .int n => .scalar (.ofAtom (.int n))
  | .real _ => .scalar (.ofAtom .real)
  | .str s => .scalar (.ofAtom (.text s))
  | .arr items => .list (ofItems items) true
  | .obj fields => .table (ofFields fields)

def ofItems : List Json → List Document
  | [] => []
  | v :: vs => ofJson v :: ofItems vs

def ofFields : List (String × Json) → List (Document × Document)
  | [] => []
  | (k, v) :: fs => (.scalar (.ofAtom (.text k)), ofJson v) :: ofFields fs

end

/-- The document itself, without a type of its own. -/
def untagged : Document → Document
  | .tagged d => d
  | d => d

end Document
end Tinct
