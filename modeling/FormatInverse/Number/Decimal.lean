import FormatInverse.Number.Numeral

/-!
# Decimals of 96 bits

A decimal is a mantissa below 2^96, a sign, and a scale of at most 28: the number of its digits that
stand behind the point.  Trailing zeros count, so 12.5 and 12.50 are different decimals.  Reading
keeps as many digits of a fraction as there is room for and rounds at the first one dropped, a half
away from zero.
-/

namespace FormatInverse

structure Decimal where
  negative : Bool
  mantissa : Nat
  scale : Nat
  deriving DecidableEq, Repr

namespace Decimal

/-- no mantissa reaches this -/
def bound : Nat := Nat.pow 2 96

def maxScale : Nat := 28

/-- The mantissa and scale after dropping the digits from `c` on. -/
def round? (mantissa scale : Nat) (c : Char) : Option (Nat × Nat) :=
  if Text.digitValue c < 5 then some (mantissa, scale)
  else if mantissa + 1 < bound then some (mantissa + 1, scale)
  else if scale = 0 then none
  else some ((mantissa + 1 + 4) / 10, scale - 1)

/-- The mantissa and scale with the digits of a fraction, as far as there is room. -/
def extend? (mantissa scale : Nat) : Text → Option (Nat × Nat)
  | [] => some (mantissa, scale)
  | c :: rest =>
    if scale < maxScale ∧ 10 * mantissa + Text.digitValue c < bound then
      extend? (10 * mantissa + Text.digitValue c) (scale + 1) rest
    else round? mantissa scale c

/-- The decimal of a sign, the digits before the point and the digits behind it. -/
def ofDigits? (negative : Bool) (whole fraction : Text) : Option Decimal :=
  if Text.value whole < bound then
    (extend? (Text.value whole) 0 fraction).map fun (mantissa, scale) =>
      ⟨negative && mantissa != 0, mantissa, scale⟩
  else none

/-- The decimal of a numeral in normal form without exponent. -/
def ofNormal? (t : Text) : Option Decimal :=
  (Number.parts? t).bind fun p => ofDigits? p.negative p.whole p.fraction

def signText (d : Decimal) : Text := if d.negative then ['-'] else []

/-- the decimal with all digits of its scale -/
def text (d : Decimal) : Text :=
  let digits := Text.padded (d.scale + 1) d.mantissa
  let whole := digits.take (digits.length - d.scale)
  let fraction := digits.drop (digits.length - d.scale)
  d.signText ++ whole ++ (if fraction.isEmpty then [] else '.' :: fraction)

/-- the mantissa with its sign -/
def mantissaText (d : Decimal) : Text := d.signText ++ Text.decimal d.mantissa

end Decimal

end FormatInverse
