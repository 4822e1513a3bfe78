import FormatInverse.Number.Numeral

/-!
# Floating-point numbers of 64 bits

A finite binary64 is given by its sign and by the bits below the sign.  These count the numbers from
zero upwards: the count of `x` is `u * 2^52 + s` where `x = s * 2^(u - 1074)` and `u` is the least
exponent for which `s < 2^53`; so a significand that is rounded up to `2^53` needs no care.
-/

namespace FormatInverse

/-- the count of infinity -/
def Binary64.bound : Nat := 2047 * Nat.pow 2 52

structure Binary64 where
  negative : Bool
  magnitude : Nat
  finite : magnitude < Binary64.bound
  deriving DecidableEq, Repr

namespace Binary64

/-- the integer nearest to `n / d`, of two the even one -/
def roundHalfEven (n d : Nat) : Nat :=
  if 2 * (n % d) < d then n / d
  else if d < 2 * (n % d) then n / d + 1
  else n / d + n / d % 2

/-- The count of the binary64 nearest to `n / d`. -/
def nearest (n d : Nat) : Nat :=
  let scaled := n * Nat.pow 2 1074
  let u := (scaled / d).log2 - 52
  u * Nat.pow 2 52 + roundHalfEven scaled (d * Nat.pow 2 u)

/-- The count of the binary64 nearest to `c * 10^e`.  Exponents far from zero need no powers of ten:
beyond 400 the number is no finite one, and below `10^(-400)` it is nearest to zero. -/
def nearestScaled (c : Nat) (e : Int) : Nat :=
  if c = 0 then 0
  else if 400 < e then bound
  else if e + c.log2 + 1 < -400 then 0
  else if 0 ≤ e then nearest (c * Nat.pow 10 e.toNat) 1
  else nearest c (Nat.pow 10 (-e).toNat)

/-- The binary64 nearest to a numeral in normal form, if it is finite. -/
def ofNormal? (t : Text) : Option Binary64 :=
  (Number.parts? t).bind fun p =>
    let magnitude := nearestScaled p.coefficient p.scale
    if h : magnitude < bound then some ⟨p.negative, magnitude, h⟩ else none

/-- the 64 bits, the sign first -/
def bits (x : Binary64) : Nat := (if x.negative then Nat.pow 2 63 else 0) + x.magnitude

/-- the bits as sixteen hexadecimal digits -/
def bitsText (x : Binary64) : Text :=
  let digits := Text.hexadecimal x.bits
  List.replicate (16 - digits.length) '0' ++ digits

end Binary64

end FormatInverse
