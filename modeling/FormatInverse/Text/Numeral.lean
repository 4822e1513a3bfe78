import FormatInverse.Text.Basic

/-!
# Numerals

Decimal digits with their values.  `value` reads a run of digits, `decimal` writes a number without
leading zeros, `padded` fills it up with zeros to a least width.
-/

namespace FormatInverse.Text

def digitValue (c : Char) : Nat := c.toNat - '0'.toNat

/-- the number that a run of decimal digits denotes -/
def value (digits : Text) : Nat := digits.foldl (fun n c => 10 * n + digitValue c) 0

/-- the digits of a number, the first of them zero only for zero itself -/
def decimal (n : Nat) : Text := Nat.toDigits 10 n

/-- the digits of a number, with zeros in front up to `width` digits -/
def padded (width n : Nat) : Text :=
  List.replicate (width - (decimal n).length) '0' ++ decimal n

/-- the lower-case hexadecimal digits of a number -/
def hexadecimal (n : Nat) : Text := Nat.toDigits 16 n

/-- the value of a hexadecimal digit of either case -/
def hexValue? (c : Char) : Option Nat :=
  if '0' ≤ c ∧ c ≤ '9' then some (c.toNat - '0'.toNat)
  else if 'a' ≤ c ∧ c ≤ 'f' then some (c.toNat - 'a'.toNat + 10)
  else if 'A' ≤ c ∧ c ≤ 'F' then some (c.toNat - 'A'.toNat + 10)
  else none

theorem value_append (s : Text) (c : Char) : value (s ++ [c]) = 10 * value s + digitValue c := by
  simp [value]

end FormatInverse.Text
