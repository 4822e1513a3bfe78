import FormatInverse.Number.Binary64
import FormatInverse.Number.Decimal
import FormatInverse.Number.Normal

/-!
# Reading numbers as a culture writes them
-/

namespace FormatInverse.Number

def parseDecimal? (k : Culture) (raw : Text) : Option Decimal :=
  (normal? k .decimal raw).bind Decimal.ofNormal?

def parseBinary64? (k : Culture) (raw : Text) : Option Binary64 :=
  (normal? k .float raw).bind Binary64.ofNormal?

/-- the integer that a numeral in normal form denotes, if 64 bits hold it -/
def int64? (t : Text) : Option Int64 :=
  let (negative, digits) := splitSign t
  let n : Int := if negative then -(Text.value digits : Int) else Text.value digits
  if Int64.minValue.toInt ≤ n ∧ n ≤ Int64.maxValue.toInt then some (Int64.ofInt n) else none

def parseInt64? (k : Culture) (raw : Text) : Option Int64 := (normal? k .integer raw).bind int64?

end FormatInverse.Number
