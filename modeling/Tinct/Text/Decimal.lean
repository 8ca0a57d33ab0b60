/-!
# Decimal numerals

The number that decimal digits stand for, and whether it is too large for a double.
-/

namespace Tinct

/-- The decimal digits at the front. -/
def leadingDigits (cs : List Char) : List Char × List Char := cs.span Char.isDigit

def digitsValue (ds : List Char) : Nat := ds.foldl (fun n d => n * 10 + (d.toNat - 48)) 0

/-- Whether `n` times ten to the power of `exponent` is too large for a double. -/
def overflowsDouble (n : Nat) (exponent : Int) : Bool :=
  let bound := Nat.pow 2 1024 - Nat.pow 2 970
  if n = 0 then false
  else if exponent > 400 then true
  else if 0 ≤ exponent then bound ≤ n * Nat.pow 10 exponent.toNat
  else if n < bound then false
  else bound * Nat.pow 10 exponent.natAbs ≤ n

end Tinct
