import Tinct.Document
import Tinct.Regex.Parser
import Tinct.Text.Decimal
import Tinct.Yaml.Event

/-!
# Types of YAML scalars

A plain scalar without a tag is what it looks like: null, a truth value, a whole number, a real
number, or else a text. `Document.ofYamlScalar` gives what a scalar can serve as.
-/

namespace Tinct.Yaml

def looksNull (s : String) : Bool := ["null", "Null", "NULL", "~"].contains s

def bool? (s : String) : Option Bool :=
  if ["true", "True", "TRUE"].contains s then some true
  else if ["false", "False", "FALSE"].contains s then some false
  else none

/-- The number that digits in a base stand for, if they are digits and there are some. -/
def basedNumber? (base : Nat) (cs : List Char) : Option Nat :=
  if cs.isEmpty then none
  else cs.foldlM (fun n c => (Regex.hexValue? c).bind fun d =>
    if d < base then some (n * base + d) else none) 0

/-- A number behind its sign. -/
def unsigned? (cs : List Char) : Option Nat :=
  let based := match cs with
    | '0' :: 'x' :: ds => basedNumber? 16 ds
    | '0' :: 'o' :: ds => basedNumber? 8 ds
    | '0' :: 'b' :: ds => basedNumber? 2 ds
    | _ => none
  based.or
    (match cs with
    | '0' :: _ :: _ => if cs.all Char.isDigit then none else basedNumber? 10 cs
    | _ => basedNumber? 10 cs)

/-- A whole number; no digit but a zero alone starts with a zero. -/
def int? (s : String) : Option Int :=
  match s.toList with
  | '+' :: cs => (unsigned? cs).map Int.ofNat
  | '-' :: cs => (unsigned? cs).map fun n => -(n : Int)
  | cs => (unsigned? cs).map Int.ofNat

/-- Whether a text is a sign and a zero in front of digits, which is no number. -/
def hasLeadingZero (s : String) : Bool :=
  let cs := s.toList
  let cs := if cs.head? == some '-' || cs.head? == some '+' then cs.tail else cs
  1 < cs.length && cs.head? == some '0' && cs.all Char.isDigit

/-- Whether `cs` is a decimal number without a sign, in the range of a double. -/
def isDecimal (cs : List Char) : Bool :=
  let (whole, rest) := leadingDigits cs
  let (part, rest) := match rest with
    | '.' :: rest => leadingDigits rest
    | _ => ([], rest)
  let power : Option Int := match rest with
    | [] => some 0
    | c :: rest =>
      let (sign, ds) : Int × List Char := match rest with
        | '-' :: ds => (-1, ds)
        | '+' :: ds => (1, ds)
        | _ => (1, rest)
      if (c == 'e' || c == 'E') && !ds.isEmpty && ds.all Char.isDigit then
        some (sign * digitsValue ds)
      else none
  !(whole.isEmpty && part.isEmpty) &&
    power.any fun power => !overflowsDouble (digitsValue (whole ++ part)) (power - part.length)

/-- Whether a text is a real number. -/
def isReal (s : String) : Bool :=
  let (signed, cs) := match s.toList with
    | '+' :: cs => (true, cs)
    | '-' :: cs => (true, cs)
    | cs => (false, cs)
  isDecimal cs || [".inf", ".Inf", ".INF"].contains (String.ofList cs)
    || (!signed && [".nan", ".NaN", ".NAN"].contains s)

/-- The type of a whole number, if it is not too large to have one. -/
def intAtom? (n : Int) : Option Atom :=
  if -(Nat.pow 2 63) ≤ n && n < Nat.pow 2 64 then some (.int n) else none

/-- The type of a plain scalar. -/
def plainAtom? (s : String) : Option Atom :=
  if s.isEmpty || looksNull s then some .null
  else match bool? s, int? s with
    | some b, _ => some (.bool b)
    | none, some n =>
      if -(Nat.pow 2 127) ≤ n && n < Nat.pow 2 128 then intAtom? n
      else if isReal s then some .real
      else some (.text s)
    | none, none => if !hasLeadingZero s && isReal s then some .real else some (.text s)

/-- The beginning of the standard tags. -/
def standardTag (name : String) : String := "tag:yaml.org,2002:" ++ name

/-- The type of a scalar with a standard tag, or one that is not known. -/
def taggedAtom? (tag text : String) : Option Atom :=
  if tag = standardTag "bool" then (bool? text).map .bool
  else if tag = standardTag "int" then (int? text).bind intAtom?
  else if tag = standardTag "float" then if isReal text then some .real else none
  else if tag = standardTag "null" then if looksNull text then some .null else none
  else some (.text text)

/-- Whether a tag is one of a type of its own. -/
def isLocalTag (tag : Option String) : Bool := tag.any (·.toList.head? == some '!')

/-- Whether a scalar is read as a value of the type that `name` tags: if it is plain, or if it is
literal and tagged so. -/
def readsAs (name : String) (tag : Option String) (style : Style) : Bool :=
  style == .plain || (style == .literal && tag == some (standardTag name))

/-- What a scalar can serve as. -/
def scalarOf (tag : Option String) (style : Style) (text : String) : Scalar where
  text? := some text
  bool? := if readsAs "bool" tag style then bool? text else none
  nat? :=
    if readsAs "int" tag style && text.toList.head? != some '-' then
      ((int? text).map Int.toNat).filter (· < Nat.pow 2 64)
    else none
  null? :=
    match style, tag with
    | .plain, none => some (text.isEmpty || looksNull text)
    | .plain, some tag =>
      if tag ≠ standardTag "null" then some false
      else if looksNull text then some true
      else none
    | _, _ => some false
  isBlank := style == .plain && text.isEmpty
  atom? :=
    match tag with
    | none => if style == .plain then plainAtom? text else some (.text text)
    | some tag => taggedAtom? tag text

end Tinct.Yaml

namespace Tinct

/-- A YAML scalar as a document. -/
def Document.ofYamlScalar (tag : Option String) (style : Yaml.Style) (text : String) : Document :=
  let d := Document.scalar (Yaml.scalarOf tag style text)
  if Yaml.isLocalTag tag then .tagged d else d

end Tinct
