import Mathlib.Data.List.Basic
import Tinct.Text.Decimal

/-!
# Numbers in decimal digits

A number and the digits that it is written with tell each other, unless the digits begin with zeros:

* `digitsValue_eq`: what digits amount to;
* `toDigits_ofDigitChars`: the digits of a number that more digits have been put to;
* `toDigits_digits`: the digits of what digits amount to.
-/

namespace Tinct

theorem digitsValue_eq (ds : List Char) : digitsValue ds = Nat.ofDigitChars 10 ds 0 := by
  simp only [digitsValue, Nat.ofDigitChars_eq_foldl, Nat.mul_comm]
  rfl

theorem toDigits_digit {d : Char} (h : d.isDigit = true) :
    d.toNat - 48 < 10 ∧ Nat.toDigits 10 (d.toNat - 48) = [d] := by
  obtain ⟨hlow, hhigh⟩ : 48 ≤ d.toNat ∧ d.toNat ≤ 57 := Char.isDigit_iff_toNat.mp h
  have hlt : d.toNat - 48 < 10 := by omega
  refine ⟨hlt, ?_⟩
  rw [Nat.toDigits_of_lt_base hlt, List.singleton_inj, ← Char.toNat_inj,
    Nat.toNat_digitChar_of_lt_ten hlt]
  omega

theorem toDigits_ofDigitChars {n : Nat} (hn : 0 < n) {ds : List Char}
    (hds : ∀ d ∈ ds, d.isDigit = true) :
    Nat.toDigits 10 (Nat.ofDigitChars 10 ds n) = Nat.toDigits 10 n ++ ds := by
  induction ds generalizing n with
  | nil => rw [Nat.ofDigitChars_nil, List.append_nil]
  | cons d ds ih =>
    obtain ⟨hd, hds⟩ := List.forall_mem_cons.mp hds
    obtain ⟨hlt, hdigit⟩ := toDigits_digit hd
    have hone : Nat.toDigits 10 (10 * n + (d.toNat - 48)) = Nat.toDigits 10 n ++ [d] := by
      rw [← Nat.toDigits_append_toDigits (by decide) hn hlt, hdigit]
    have hmore := ih (show 0 < 10 * n + (d.toNat - 48) by omega) hds
    rw [hone, List.append_assoc] at hmore
    rw [Nat.ofDigitChars_cons]
    exact hmore

theorem toDigits_digits {d : Char} {ds : List Char} (hd : d.isDigit = true) (hzero : d ≠ '0')
    (hds : ∀ c ∈ ds, c.isDigit = true) :
    Nat.toDigits 10 (Nat.ofDigitChars 10 (d :: ds) 0) = d :: ds := by
  obtain ⟨-, hdigit⟩ := toDigits_digit hd
  have hpos : 0 < d.toNat - 48 := by
    refine Nat.pos_of_ne_zero fun hnothing => hzero ?_
    rw [hnothing] at hdigit
    exact (List.singleton_inj.mp hdigit).symm
  have hrest := toDigits_ofDigitChars hpos hds
  rw [hdigit] at hrest
  rw [Nat.ofDigitChars_cons, Nat.mul_zero, Nat.zero_add]
  exact hrest

end Tinct
