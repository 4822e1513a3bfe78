import FormatInverse.Text.Numeral

/-!
# Numerals in parts

A number in normal form is a sign, the digits before and behind the point, and an exponent; `parts?`
takes it apart.
-/

namespace FormatInverse.Number

structure Parts where
  negative : Bool
  /-- the digits before the point -/
  whole : Text
  /-- the digits behind the point -/
  fraction : Text
  exponent : Int
  deriving DecidableEq, Repr

namespace Parts

/-- the number that the digits form when the point is left out -/
def coefficient (p : Parts) : Nat := Text.value (p.whole ++ p.fraction)

/-- the power of ten by which the coefficient is scaled -/
def scale (p : Parts) : Int := p.exponent - p.fraction.length

end Parts

/-- whether a numeral is negative, and the rest of it -/
def splitSign : Text → Bool × Text
  | '-' :: rest => (true, rest)
  | t => (false, t)

/-- the digits behind a point, if there is one, and the rest -/
def splitFraction : Text → Text × Text
  | '.' :: rest => (rest.takeWhile Char.isDigit, rest.dropWhile Char.isDigit)
  | t => ([], t)

/-- the value of an integer with an optional sign -/
def exponentValue? (t : Text) : Option Int :=
  let (negative, digits) := match t with
    | '+' :: rest => (false, rest)
    | _ => splitSign t
  if digits.isEmpty || !digits.all Char.isDigit then none
  else if negative then some (-(Text.value digits : Int))
  else some (Text.value digits)

/-- The parts of a numeral in normal form, with at least one digit before the exponent. -/
def parts? (t : Text) : Option Parts :=
  let (negative, t) := splitSign t
  let whole := t.takeWhile Char.isDigit
  let (fraction, rest) := splitFraction (t.dropWhile Char.isDigit)
  if whole.isEmpty && fraction.isEmpty then none
  else
    match rest with
    | [] => some ⟨negative, whole, fraction, 0⟩
    | 'e' :: rest => (exponentValue? rest).map fun e => ⟨negative, whole, fraction, e⟩
    | _ => none

end FormatInverse.Number
