import FormatInverse.Calendar.Date

/-!
# Date-times

A time of day has seconds from 0 to 59; a leap second is the second 59 with 10^9 nanoseconds or
more.
-/

namespace FormatInverse.Calendar

structure Time where
  hour : Nat
  minute : Nat
  second : Nat
  nanosecond : Nat
  valid : hour < 24 ∧ minute < 60 ∧ second < 60 ∧ nanosecond < 2000000000
  deriving DecidableEq, Repr

def Time.midnight : Time := ⟨0, 0, 0, 0, by decide⟩

structure DateTime where
  date : Date
  time : Time
  deriving DecidableEq, Repr

namespace DateTime

/-- the minutes of the time of day -/
def minutes (t : DateTime) : Int := 60 * t.time.hour + t.time.minute

/-- The time of day with other minutes, which are less than a day. -/
def atMinute (time : Time) (n : Nat) (h : n < 1440) : Time :=
  ⟨n / 60, n % 60, time.second, time.nanosecond, by have := time.valid; omega⟩

/-- The date-time that lies `offset` minutes before, where `offset` is less than a day. -/
def minus? (t : DateTime) (offset : Int) : Option DateTime :=
  let n := t.minutes - offset
  let date :=
    if n < 0 then t.date.previous?
    else if n < 1440 then some t.date
    else t.date.next?
  date.map fun date => ⟨date, atMinute t.time (n % 1440).toNat (by omega)⟩

end DateTime

end FormatInverse.Calendar
