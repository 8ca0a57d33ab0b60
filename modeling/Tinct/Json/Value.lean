import Tinct.Text.Quoted

/-!
# JSON values

`Json` values keep the order of their fields, and fields may share a name. `Json.render` writes a
value without white space, `Json.renderPretty` one element a line.
-/

namespace Tinct

/-- A JSON value. -/
inductive Json where
  | null
  | bool (b : Bool)
  /-- An integer of at most 64 bits. -/
  | int (n : Int)
  /-- Any other number, as it is written. -/
  | real (digits : String)
  | str (s : String)
  | arr (items : List Json)
  | obj (fields : List (String × Json))
deriving Repr, Inhabited

namespace Json

/-- The four hexadecimal digits of a control character. -/
def fourDigits (n : Nat) : String :=
  let digits := Nat.toDigits 16 n
  .ofList (List.replicate (4 - digits.length) '0' ++ digits)

/-- A character as it stands between double quotes. -/
def escapeChar (c : Char) : String :=
  match c with
  | '"' => "\\\""
  | '\\' => "\\\\"
  | '\x08' => "\\b"
  | '\x0c' => "\\f"
  | '\n' => "\\n"
  | '\r' => "\\r"
  | '\t' => "\\t"
  | c => if c.toNat < 0x20 then "\\u" ++ fourDigits c.toNat else c.toString

def renderString (s : String) : String :=
  "\"" ++ String.join (s.toList.map escapeChar) ++ "\""

mutual

/-- The value in one line, without white space. -/
def render : Json → String
  | .null => "null"
  | .bool b => if b then "true" else "false"
  | .int n => toString n
  | .real digits => digits
  | .str s => renderString s
  | .arr items => "[" ++ ",".intercalate (renderItems items) ++ "]"
  | .obj fields => "\x7b" ++ ",".intercalate (renderFields fields) ++ "\x7d"

def renderItems : List Json → List String
  | [] => []
  | v :: vs => v.render :: renderItems vs

def renderFields : List (String × Json) → List String
  | [] => []
  | (k, v) :: fs => (renderString k ++ ":" ++ v.render) :: renderFields fs

end

/-- Lines between brackets, one for each part, two spaces further in than `margin`. -/
def bracketed (opening closing margin : String) (parts : List String) : String :=
  if parts.isEmpty then opening ++ closing
  else
    let inner := margin ++ "  "
    opening ++ "\n" ++ ",\n".intercalate (parts.map (inner ++ ·)) ++ "\n" ++ margin ++ closing

mutual

/-- The value with one element a line, `margin` being in front of the current line. -/
def renderIndented (margin : String) : Json → String
  | .arr items => bracketed "[" "]" margin (indentedItems (margin ++ "  ") items)
  | .obj fields => bracketed "\x7b" "\x7d" margin (indentedFields (margin ++ "  ") fields)
  | .null => render .null
  | .bool b => render (.bool b)
  | .int n => render (.int n)
  | .real digits => digits
  | .str s => renderString s

def indentedItems (margin : String) : List Json → List String
  | [] => []
  | v :: vs => v.renderIndented margin :: indentedItems margin vs

def indentedFields (margin : String) : List (String × Json) → List String
  | [] => []
  | (k, v) :: fs =>
    (renderString k ++ ": " ++ v.renderIndented margin) :: indentedFields margin fs

end

/-- The value with one element a line and an indentation of two spaces. -/
def renderPretty (v : Json) : String := v.renderIndented ""

end Json
end Tinct
