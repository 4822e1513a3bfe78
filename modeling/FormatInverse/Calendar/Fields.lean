import FormatInverse.Calendar.DateTime

/-!
# Fields of a date-time

What has been read of a date-time so far.  A field may be read several times, but always with the
same value.  At the end the fields have to determine a date, and a time of day unless only the date
is asked for; a year of two digits is in the years from 1970 to 2069, and a weekday has to be right.
-/

namespace FormatInverse.Calendar

structure Fields where
  year : Option Int
  yearOfCentury : Option Nat
  month : Option Nat
  day : Option Nat
  /-- the day of the week, Monday being zero -/
  weekday : Option Nat
  /-- zero before noon, one after -/
  half : Option Nat
  /-- the hours since midnight or noon -/
  hourOfHalf : Option Nat
  minute : Option Nat
  second : Option Nat
  nanosecond : Option Nat
  /-- minutes east of Greenwich -/
  offset : Option Int
  deriving DecidableEq, Repr

namespace Fields

def empty : Fields :=
  ⟨none, none, none, none, none, none, none, none, none, none, none⟩

/-! ## reading one more field -/

/-- a field with the value `new`, unless it has another one already -/
def agree? [DecidableEq α] (old : Option α) (new : α) : Option (Option α) :=
  if old = none ∨ old = some new then some (some new) else none

/-- a field with a value from `lo` to `hi` -/
def agreeIn? (old : Option Nat) (lo hi new : Nat) : Option (Option Nat) :=
  if lo ≤ new ∧ new ≤ hi then agree? old new else none

def withYear? (f : Fields) (n : Int) : Option Fields :=
  (agree? f.year n).map fun v => { f with year := v }

def withYearOfCentury? (f : Fields) (n : Nat) : Option Fields :=
  (agreeIn? f.yearOfCentury 0 99 n).map fun v => { f with yearOfCentury := v }

def withMonth? (f : Fields) (n : Nat) : Option Fields :=
  (agreeIn? f.month 1 12 n).map fun v => { f with month := v }

def withDay? (f : Fields) (n : Nat) : Option Fields :=
  (agreeIn? f.day 1 31 n).map fun v => { f with day := v }

def withWeekday? (f : Fields) (n : Nat) : Option Fields :=
  (agreeIn? f.weekday 0 6 n).map fun v => { f with weekday := v }

def withHalf? (f : Fields) (n : Nat) : Option Fields :=
  (agreeIn? f.half 0 1 n).map fun v => { f with half := v }

/-- an hour of the clock with twelve hours, on which twelve comes before one -/
def withHour12? (f : Fields) (n : Nat) : Option Fields :=
  if 1 ≤ n ∧ n ≤ 12 then
    (agree? f.hourOfHalf (n % 12)).map fun v => { f with hourOfHalf := v }
  else none

/-- an hour of the clock with twenty-four hours -/
def withHour24? (f : Fields) (n : Nat) : Option Fields := do
  if n ≤ 23 then
    let half ← agree? f.half (n / 12)
    let hour ← agree? f.hourOfHalf (n % 12)
    return { f with half := half, hourOfHalf := hour }
  else none

def withMinute? (f : Fields) (n : Nat) : Option Fields :=
  (agreeIn? f.minute 0 59 n).map fun v => { f with minute := v }

def withSecond? (f : Fields) (n : Nat) : Option Fields :=
  (agreeIn? f.second 0 60 n).map fun v => { f with second := v }

def withNanosecond? (f : Fields) (n : Nat) : Option Fields :=
  (agreeIn? f.nanosecond 0 999999999 n).map fun v => { f with nanosecond := v }

def withOffset? (f : Fields) (n : Int) : Option Fields :=
  (agree? f.offset n).map fun v => { f with offset := v }

/-! ## what the fields determine -/

/-- the year that a year of two digits stands for -/
def fullYear (n : Nat) : Int := if n < 70 then 2000 + n else 1900 + n

def year? (f : Fields) : Option Int :=
  match f.year, f.yearOfCentury with
  | some y, none => some y
  | some y, some n => if 0 ≤ y ∧ y % 100 = n then some y else none
  | none, some n => some (fullYear n)
  | none, none => none

def date? (f : Fields) : Option Date := do
  let d ← Date.of? (← f.year?) (← f.month) (← f.day)
  if f.weekday = none ∨ f.weekday = some d.weekday then return d else none

/-- the time of day of an hour, a minute, a second up to 60 and a part of a second -/
def clock? (hour minute second nanosecond : Nat) : Option Time :=
  let s := if second = 60 then 59 else second
  let n := if second = 60 then 1000000000 + nanosecond else nanosecond
  if h : hour < 24 ∧ minute < 60 ∧ s < 60 ∧ n < 2000000000 then some ⟨hour, minute, s, n, h⟩
  else none

def time? (f : Fields) : Option Time := do
  let half ← f.half
  let hour ← f.hourOfHalf
  let minute ← f.minute
  match f.second, f.nanosecond with
  | some s, n => clock? (12 * half + hour) minute s (n.getD 0)
  | none, none => clock? (12 * half + hour) minute 0 0
  | none, some _ => none

/-- the date-time as it is written, whatever its offset -/
def local? (f : Fields) : Option DateTime := do return ⟨← f.date?, ← f.time?⟩

/-- the date-time in Greenwich -/
def universal? (f : Fields) : Option DateTime := do
  let offset ← f.offset
  let t ← f.local?
  if -1440 < offset ∧ offset < 1440 then t.minus? offset else none

/-- the beginning of the date, whatever the time of day -/
def startOfDay? (f : Fields) : Option DateTime := f.date?.map fun d => ⟨d, .midnight⟩

end Fields

end FormatInverse.Calendar
