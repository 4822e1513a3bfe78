import FormatInverse.Text.Basic

/-!
# Cultures: how numbers and dates are written
-/

namespace FormatInverse

/-- the order of the parts of a short date -/
inductive DateOrder where
  | monthDayYear
  | dayMonthYear
  | yearMonthDay
  deriving DecidableEq, Repr

namespace DateOrder

def name : DateOrder → String
  | monthDayYear => "month_day_year"
  | dayMonthYear => "day_month_year"
  | yearMonthDay => "year_month_day"

def ofName? (t : Text) : Option DateOrder :=
  [monthDayYear, dayMonthYear, yearMonthDay].find? fun o => o.name.toList == t

end DateOrder

structure Culture where
  decimalSeparator : Char
  groupSeparator : Char
  dateOrder : DateOrder
  deriving DecidableEq, Repr

namespace Culture

def invariant : Culture := ⟨'.', ',', .monthDayYear⟩

/-- Brazilian Portuguese -/
def ptBR : Culture := ⟨',', '.', .dayMonthYear⟩

/-- British English -/
def enGB : Culture := ⟨'.', ',', .dayMonthYear⟩

end Culture

end FormatInverse
