import Tinct.Json.Value
import Tinct.Regex.Parser
import Tinct.Text.Decimal

/-!
# Reading JSON

`Json.parse?` reads a text that holds one JSON value. Values nest at most `Json.depthLimit` deep,
and a number is refused if it is too large for a double.
-/

namespace Tinct.Json

/-- How deep arrays and objects may nest. -/
def depthLimit : Nat := 127

def isSpace (c : Char) : Bool := c == ' ' || c == '\n' || c == '\t' || c == '\r'

def skipSpace (cs : List Char) : List Char := cs.dropWhile isSpace

/-- The number that four hexadecimal digits stand for. -/
def hexFour? : List Char → Option (Nat × List Char)
  | a :: b :: c :: d :: cs => do
    let a ← Regex.hexValue? a
    let b ← Regex.hexValue? b
    let c ← Regex.hexValue? c
    let d ← Regex.hexValue? d
    return (((a * 16 + b) * 16 + c) * 16 + d, cs)
  | _ => none

/-- The character of a `\u` escape behind its letter; two escapes make up one character where the
first is the high half of a pair. -/
def unicodeEscape? (cs : List Char) : Option (Char × List Char) := do
  let (n, rest) ← hexFour? cs
  if 0xD800 ≤ n ∧ n < 0xDC00 then
    match rest with
    | '\\' :: 'u' :: rest => do
      let (low, rest) ← hexFour? rest
      if 0xDC00 ≤ low ∧ low < 0xE000 then
        return (.ofNat (0x10000 + (n - 0xD800) * 0x400 + (low - 0xDC00)), rest)
      else none
    | _ => none
  else if n.isValidChar then return (.ofNat n, rest)
  else none

/-- The character that an escape behind its backslash stands for. -/
def escape? : List Char → Option (Char × List Char)
  | '"' :: cs => some ('"', cs)
  | '\\' :: cs => some ('\\', cs)
  | '/' :: cs => some ('/', cs)
  | 'b' :: cs => some ('\x08', cs)
  | 'f' :: cs => some ('\x0c', cs)
  | 'n' :: cs => some ('\n', cs)
  | 'r' :: cs => some ('\r', cs)
  | 't' :: cs => some ('\t', cs)
  | 'u' :: cs => unicodeEscape? cs
  | _ => none

/-- A string behind its opening quote, `before` being what has been read of it, last first. -/
def string? : Nat → List Char → List Char → Option (String × List Char)
  | 0, _, _ => none
  | fuel + 1, before, cs =>
    match cs with
    | [] => none
    | '"' :: rest => some (.ofList before.reverse, rest)
    | '\\' :: rest => do
      let (c, rest) ← escape? rest
      string? fuel (c :: before) rest
    | c :: rest => if c.toNat < 0x20 then none else string? fuel (c :: before) rest

/-- A fraction and an exponent, either of which may be missing: their digits, and how many there
are of the fraction. -/
def fraction? (cs : List Char) : Option (List Char × List Char) :=
  match cs with
  | '.' :: rest =>
    match leadingDigits rest with
    | ([], _) => none
    | r => some r
  | _ => some ([], cs)

def exponent? (cs : List Char) : Option (Option Int × List Char) :=
  match cs with
  | c :: rest =>
    if c = 'e' ∨ c = 'E' then
      let (sign, rest) := match rest with
        | '-' :: rest => (-1, rest)
        | '+' :: rest => (1, rest)
        | _ => ((1 : Int), rest)
      match leadingDigits rest with
      | ([], _) => none
      | (ds, rest) => some (some (sign * digitsValue ds), rest)
    else some (none, cs)
  | [] => some (none, cs)

/-- A number. -/
def number? (cs : List Char) : Option (Json × List Char) := do
  let (negative, unsigned) := match cs with
    | '-' :: rest => (true, rest)
    | _ => (false, cs)
  let (whole, rest) := leadingDigits unsigned
  if whole.isEmpty || (whole.head? == some '0' && 1 < whole.length) then none
  else do
    let (part, rest) ← fraction? rest
    let (power, rest) ← exponent? rest
    let n := digitsValue whole
    let exact := part.isEmpty && power.isNone
    if exact && !negative && n < Nat.pow 2 64 then return (.int n, rest)
    else if exact && negative && n ≠ 0 && n ≤ Nat.pow 2 63 then return (.int (-n), rest)
    else if overflowsDouble (digitsValue (whole ++ part)) (power.getD 0 - part.length) then none
    else return (.real (.ofList (cs.take (cs.length - rest.length))), rest)

/-- The elements of an array behind its bracket or a comma. -/
def items? (value? : List Char → Option (Json × List Char)) :
    Nat → List Char → Option (List Json × List Char)
  | 0, _ => none
  | fuel + 1, cs => do
    let (v, rest) ← value? cs
    match skipSpace rest with
    | ',' :: rest => do
      let (vs, rest) ← items? value? fuel rest
      return (v :: vs, rest)
    | ']' :: rest => return ([v], rest)
    | _ => none

/-- The fields of an object behind its brace or a comma. -/
def fields? (value? : List Char → Option (Json × List Char)) :
    Nat → List Char → Option (List (String × Json) × List Char)
  | 0, _ => none
  | fuel + 1, cs =>
    match skipSpace cs with
    | '"' :: rest => do
      let (key, rest) ← string? (rest.length + 1) [] rest
      match skipSpace rest with
      | ':' :: rest => do
        let (v, rest) ← value? rest
        match skipSpace rest with
        | ',' :: rest => do
          let (fs, rest) ← fields? value? fuel rest
          return ((key, v) :: fs, rest)
        | '\x7d' :: rest => return ([(key, v)], rest)
        | _ => none
      | _ => none
    | _ => none

/-- A value inside of which values may nest `room` deep. -/
def value? : Nat → List Char → Option (Json × List Char)
  | room, cs =>
    match skipSpace cs, room with
    | 'n' :: 'u' :: 'l' :: 'l' :: rest, _ => some (.null, rest)
    | 't' :: 'r' :: 'u' :: 'e' :: rest, _ => some (.bool true, rest)
    | 'f' :: 'a' :: 'l' :: 's' :: 'e' :: rest, _ => some (.bool false, rest)
    | '"' :: rest, _ => (string? (rest.length + 1) [] rest).map fun (s, rest) => (.str s, rest)
    | '[' :: _, 0 | '\x7b' :: _, 0 => none
    | '[' :: rest, room + 1 =>
      match skipSpace rest with
      | ']' :: rest => some (.arr [], rest)
      | _ => (items? (value? room) rest.length rest).map fun (vs, rest) => (.arr vs, rest)
    | '\x7b' :: rest, room + 1 =>
      match skipSpace rest with
      | '\x7d' :: rest => some (.obj [], rest)
      | _ => (fields? (value? room) rest.length rest).map fun (fs, rest) => (.obj fs, rest)
    | cs, _ => number? cs

/-- The value that a text holds. -/
def parse? (s : String) : Option Json :=
  match value? depthLimit s.toList with
  | some (v, rest) => if (skipSpace rest).isEmpty then some v else none
  | none => none

end Tinct.Json
