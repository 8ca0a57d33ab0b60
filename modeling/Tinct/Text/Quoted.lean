import Tinct.Unicode.Printed

/-!
# Quoted texts

`quoted` writes a text between double quotes so that every character can be seen: quotes and
backslashes are escaped, and so are the characters without a printed form of their own.
-/

namespace Tinct

/-- The lower-case hexadecimal digits of `n`. -/
def hexDigits (n : Nat) : String := .ofList (Nat.toDigits 16 n)

/-- A character as it stands between double quotes. -/
def quotedChar (c : Char) : String :=
  match c with
  | '\x00' => "\\0"
  | '\t' => "\\t"
  | '\n' => "\\n"
  | '\r' => "\\r"
  | '"' => "\\\""
  | '\\' => "\\\\"
  | c => if Unicode.isPrinted c then c.toString else "\\u\x7b" ++ hexDigits c.toNat ++ "\x7d"

/-- A text between double quotes. -/
def quoted (s : String) : String :=
  "\"" ++ String.join (s.toList.map quotedChar) ++ "\""

end Tinct
