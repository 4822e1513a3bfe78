import FormatInverse.Culture
import FormatInverse.Text.Blank

/-!
# Numbers in normal form

`normal?` brings a number as a culture writes it into one form for all cultures: no blanks around
it, no plus sign, no group separators, a point before the fraction and `e` before the exponent.  The
style says which of these parts a number may have at all.
-/

namespace FormatInverse.Number

inductive Style where
  /-- digits only -/
  | integer
  /-- digits with separators -/
  | decimal
  /-- digits with separators and an exponent -/
  | float
  deriving DecidableEq, Repr

/-- which parts of a number have been met -/
structure Met where
  digit : Bool
  fraction : Bool
  exponent : Bool
  deriving DecidableEq, Repr

def isSign (c : Char) : Bool := c == '+' || c == '-'

/-- The rest of a number in normal form, after the parts that have been met. -/
def body? (k : Culture) (style : Style) (met : Met) : Text → Option Text
  | [] => if met.digit then some [] else none
  | c :: rest =>
    if c.isDigit then (body? k style { met with digit := true } rest).map (c :: ·)
    else if style != .integer && c == k.decimalSeparator && !met.fraction && !met.exponent then
      (body? k style { met with fraction := true } rest).map ('.' :: ·)
    else if style != .integer && c == k.groupSeparator && met.digit && !met.fraction
        && !met.exponent then
      body? k style met rest
    else if style == .float && (c == 'e' || c == 'E') && met.digit && !met.exponent then
      match rest with
      | [] => (body? k style { met with exponent := true } []).map ('e' :: ·)
      | s :: after =>
        if isSign s then
          (body? k style { met with exponent := true } after).map fun t => 'e' :: s :: t
        else (body? k style { met with exponent := true } (s :: after)).map ('e' :: ·)
    else none

/-- The normal form of a number without blanks around it. -/
def signed? (k : Culture) (style : Style) : Text → Option Text
  | '-' :: rest => (body? k style ⟨false, false, false⟩ rest).map ('-' :: ·)
  | '+' :: rest => body? k style ⟨false, false, false⟩ rest
  | t => body? k style ⟨false, false, false⟩ t

/-- The normal form of a number. -/
def normal? (k : Culture) (style : Style) (raw : Text) : Option Text :=
  signed? k style (Text.trim raw)

end FormatInverse.Number
