import Mathlib
import FormatInverse.Calendar.DateTime

/-!
# Counting days and minutes

`Date.number` counts the days: the day after has the next number and the day before the last one,
over the ends of months and years, and no two dates have one number.  `DateTime.instant` counts the
minutes in the same way.

* `Date.next?_eq_some_iff`, `Date.previous?_eq_some_iff`  the neighbours of a date are the dates with
  the neighbouring numbers, and a date without one is the last or the first of all;
* `DateTime.minus?_eq_some_iff`  an offset is taken off the count of minutes, and nothing else
  changes.
-/

namespace FormatInverse.Calendar

variable {year : Int} {month m : Nat} {d e : Date}

namespace Date

/-! ## months and years -/

theorem daysBeforeMonth_add_one (year : Int) (h : 1 ≤ month) :
    daysBeforeMonth year (month + 1) = daysBeforeMonth year month + daysInMonth year month := by
  obtain ⟨m, rfl⟩ := Nat.exists_eq_add_of_le' h
  unfold daysBeforeMonth
  rw [Nat.add_sub_cancel, Nat.add_sub_cancel, List.range_succ, List.map_append, List.foldl_append]
  rfl

theorem daysBeforeMonth_mono (year : Int) : Monotone (daysBeforeMonth year) := by
  apply monotone_nat_of_le_succ
  intro m
  cases m with
  | zero => exact le_rfl
  | succ m =>
    rw [daysBeforeMonth_add_one year (Nat.succ_pos m)]
    exact Nat.le_add_right _ _

theorem daysBeforeMonth_year (year : Int) :
    daysBeforeMonth year 13 = if isLeap year then 366 else 365 := by
  have hmonths : List.range 12 = [0, 1, 2, 3, 4, 5, 6, 7, 8, 9, 10, 11] := by decide
  unfold daysBeforeMonth
  rw [hmonths]
  cases hleap : isLeap year <;> simp [daysInMonth, hleap]

theorem daysBeforeYear_add_one (year : Int) :
    daysBeforeYear (year + 1) = daysBeforeYear year + daysBeforeMonth year 13 := by
  rw [daysBeforeMonth_year]
  unfold daysBeforeYear isLeap
  split_ifs with h
  · simp only [Bool.and_eq_true, Bool.or_eq_true, decide_eq_true_eq] at h
    push_cast
    omega
  · simp only [Bool.and_eq_true, Bool.or_eq_true, decide_eq_true_eq] at h
    push_cast
    omega

theorem daysBeforeYear_mono : Monotone daysBeforeYear := by
  apply monotone_int_of_le_succ
  intro year
  rw [daysBeforeYear_add_one]
  omega

/-- A date is within its month. -/
theorem day_bounds (d : Date) :
    1 ≤ d.day ∧ daysBeforeMonth d.year d.month + d.day ≤ daysBeforeMonth d.year (d.month + 1) := by
  obtain ⟨-, -, hmonth, -, hday, hlast⟩ := d.valid
  rw [daysBeforeMonth_add_one d.year hmonth]
  omega

/-- A date is within its year. -/
theorem number_bounds (d : Date) :
    daysBeforeYear d.year < d.number ∧ d.number ≤ daysBeforeYear (d.year + 1) := by
  obtain ⟨hday, hlast⟩ := d.day_bounds
  have hmonth : d.month + 1 ≤ 13 := Nat.succ_le_succ d.valid.2.2.2.1
  have hyear := daysBeforeMonth_mono d.year hmonth
  rw [daysBeforeYear_add_one]
  unfold number
  omega

theorem number_lt_of_year_lt (h : d.year < e.year) : d.number < e.number :=
  calc d.number ≤ daysBeforeYear (d.year + 1) := d.number_bounds.2
    _ ≤ daysBeforeYear e.year := daysBeforeYear_mono h
    _ < e.number := e.number_bounds.1

theorem number_lt_of_month_lt (hyear : d.year = e.year) (h : d.month < e.month) :
    d.number < e.number := by
  have hmonth : daysBeforeMonth e.year (d.month + 1) ≤ daysBeforeMonth e.year e.month :=
    daysBeforeMonth_mono e.year h
  have hlast := d.day_bounds.2
  have hday := e.day_bounds.1
  rw [hyear] at hlast
  unfold number
  rw [hyear]
  omega

theorem number_injective : Function.Injective number := by
  intro d e h
  have hyear : d.year = e.year := by
    rcases lt_trichotomy d.year e.year with hlt | heq | hlt
    · exact absurd h (number_lt_of_year_lt hlt).ne
    · exact heq
    · exact absurd h (number_lt_of_year_lt hlt).ne'
  have hmonth : d.month = e.month := by
    rcases lt_trichotomy d.month e.month with hlt | heq | hlt
    · exact absurd h (number_lt_of_month_lt hyear hlt).ne
    · exact heq
    · exact absurd h (number_lt_of_month_lt hyear.symm hlt).ne'
  have hday : d.day = e.day := by
    unfold number at h
    rw [hyear, hmonth] at h
    omega
  cases d
  cases e
  cases hyear
  cases hmonth
  cases hday
  rfl

/-! ## the day after and the day before -/

theorem of?_eq_some_iff {day : Nat} :
    of? year month day = some d ↔ d.year = year ∧ d.month = month ∧ d.day = day := by
  unfold of?
  constructor
  · intro h
    split at h
    · cases h
      exact ⟨rfl, rfl, rfl⟩
    · cases h
  · rintro ⟨rfl, rfl, rfl⟩
    exact dif_pos d.valid

theorem of?_eq_none_iff {day : Nat} : of? year month day = none ↔ ¬ IsDate year month day := by
  unfold of?
  split <;> simp_all

theorem one_le_daysInMonth (year : Int) (month : Nat) : 1 ≤ daysInMonth year month := by
  unfold daysInMonth
  split_ifs <;> decide

/-- The last day of a year has the number of all days up to its end. -/
theorem number_lastDay (hmonth : d.month = 12) (hday : daysInMonth d.year d.month ≤ d.day) :
    d.number = daysBeforeYear (d.year + 1) := by
  have hmonths := daysBeforeMonth_add_one d.year d.valid.2.2.1
  have hlast := d.valid.2.2.2.2.2
  rw [hmonth] at hmonths hday hlast
  rw [daysBeforeYear_add_one, hmonths, number, hmonth]
  push_cast
  omega

/-- The first day of a year has the number after all days before it. -/
theorem number_firstDay (hmonth : d.month = 1) (hday : d.day = 1) :
    d.number = daysBeforeYear d.year + 1 := by
  have hmonths : daysBeforeMonth d.year 1 = 0 := rfl
  rw [number, hmonth, hday, hmonths]
  push_cast
  omega

theorem number_next? (h : d.next? = some e) : e.number = d.number + 1 := by
  obtain ⟨-, -, hfirst, hdecember, -, -⟩ := d.valid
  unfold next? at h
  split_ifs at h with hday hmonth <;> obtain ⟨hy, hm, hd⟩ := of?_eq_some_iff.mp h
  · rw [number, number, hy, hm, hd]
    push_cast
    omega
  · have hdays := daysBeforeMonth_add_one d.year hfirst
    have hlast := d.valid.2.2.2.2.2
    rw [number, number, hy, hm, hd, hdays]
    push_cast
    omega
  · rw [number_firstDay hm hd, hy, number_lastDay (by omega) (by omega)]

theorem number_previous? (h : d.previous? = some e) : e.number = d.number - 1 := by
  obtain ⟨-, -, hfirst, hdecember, hday₁, -⟩ := d.valid
  unfold previous? at h
  split_ifs at h with hday hmonth <;> obtain ⟨hy, hm, hd⟩ := of?_eq_some_iff.mp h
  · rw [number, number, hy, hm, hd]
    push_cast [hday]
    omega
  · obtain ⟨m, hm'⟩ := Nat.exists_eq_add_of_le' hmonth
    have hdays := daysBeforeMonth_add_one d.year (Nat.le_sub_one_of_lt hmonth)
    rw [Nat.sub_add_cancel hfirst] at hdays
    rw [number, number, hy, hm, hd, hdays]
    push_cast
    omega
  · have hlast : daysInMonth e.year e.month = e.day := by
      rw [hm, hd]
      rfl
    have hnew : d.month = 1 ∧ d.day = 1 := by omega
    rw [number_lastDay hm hlast.le, number_firstDay hnew.1 hnew.2, hy, Int.sub_add_cancel,
      Int.add_sub_cancel]

/-- Only the last of all dates has no day after it. -/
theorem number_le_of_next?_eq_none (h : d.next? = none) (e : Date) : e.number ≤ d.number := by
  obtain ⟨hmin, hmax, hfirst, hdecember, hday₁, hlast⟩ := d.valid
  unfold next? at h
  split_ifs at h with hday hmonth <;> rw [of?_eq_none_iff] at h
  · exact absurd ⟨hmin, hmax, hfirst, hdecember, by omega, hday⟩ h
  · exact absurd ⟨hmin, hmax, by omega, hmonth, le_rfl, one_le_daysInMonth _ _⟩ h
  · have hyear : ¬ d.year + 1 ≤ maxYear := fun hle =>
      h ⟨by omega, hle, le_rfl, by decide, le_rfl, one_le_daysInMonth _ _⟩
    rw [number_lastDay (d := d) (by omega) (by omega)]
    exact e.number_bounds.2.trans (daysBeforeYear_mono (by have := e.valid.2.1; omega))

/-- Only the first of all dates has no day before it. -/
theorem number_le_of_previous?_eq_none (h : d.previous? = none) (e : Date) :
    d.number ≤ e.number := by
  obtain ⟨hmin, hmax, hfirst, hdecember, hday₁, hlast⟩ := d.valid
  unfold previous? at h
  split_ifs at h with hday hmonth <;> rw [of?_eq_none_iff] at h
  · exact absurd ⟨hmin, hmax, hfirst, hdecember, by omega, by omega⟩ h
  · exact absurd ⟨hmin, hmax, by omega, by omega, one_le_daysInMonth _ _, le_rfl⟩ h
  · have hyear : ¬ minYear ≤ d.year - 1 := fun hle =>
      h ⟨hle, by omega, by decide, by decide, by decide, le_rfl⟩
    rw [number_firstDay (d := d) (by omega) (by omega)]
    have hbefore : daysBeforeYear d.year ≤ daysBeforeYear e.year :=
      daysBeforeYear_mono (by have := e.valid.1; omega)
    have hafter := e.number_bounds.1
    omega

theorem next?_eq_some_iff : d.next? = some e ↔ e.number = d.number + 1 := by
  constructor
  · exact number_next?
  · intro h
    cases hnext : d.next? with
    | none =>
      have hle := number_le_of_next?_eq_none hnext e
      omega
    | some e' =>
      have hnumber := number_next? hnext
      rw [number_injective (hnumber.trans h.symm)]

theorem previous?_eq_some_iff : d.previous? = some e ↔ e.number = d.number - 1 := by
  constructor
  · exact number_previous?
  · intro h
    cases hprevious : d.previous? with
    | none =>
      have hle := number_le_of_previous?_eq_none hprevious e
      omega
    | some e' =>
      have hnumber := number_previous? hprevious
      rw [number_injective (hnumber.trans h.symm)]

theorem exists_next? (h : d.year < maxYear) : ∃ e, d.next? = some e := by
  cases hnext : d.next? with
  | none =>
    have hle := number_le_of_next?_eq_none hnext ⟨maxYear, 12, 31, by decide⟩
    exact absurd (number_lt_of_year_lt h) hle.not_gt
  | some e => exact ⟨e, rfl⟩

theorem exists_previous? (h : minYear < d.year) : ∃ e, d.previous? = some e := by
  cases hprevious : d.previous? with
  | none =>
    have hle := number_le_of_previous?_eq_none hprevious ⟨minYear, 1, 1, by decide⟩
    exact absurd (number_lt_of_year_lt h) hle.not_gt
  | some e => exact ⟨e, rfl⟩

end Date

/-! ## minutes -/

namespace DateTime

variable {t v : DateTime} {offset : Int}

/-- the minutes up to a date-time -/
def instant (t : DateTime) : Int := 1440 * t.date.number + t.minutes

/-- A date-time that lies some minutes before another one, with the same second and the same part of
a second. -/
def Precedes (v t : DateTime) (minutes : Int) : Prop :=
  v.instant = t.instant - minutes ∧ v.time.second = t.time.second ∧
    v.time.nanosecond = t.time.nanosecond

/-- An offset can be taken off if it is less than a day and does not lead out of the calendar. -/
def Admits (t : DateTime) (offset : Int) : Prop :=
  (-1440 < offset ∧ offset < 1440) ∧ ∃ v : DateTime, v.Precedes t offset

theorem minutes_bounds (t : DateTime) : 0 ≤ t.minutes ∧ t.minutes < 1440 := by
  obtain ⟨hhour, hminute, -, -⟩ := t.time.valid
  unfold minutes
  omega

/-- The minutes of the day settle hour and minute. -/
theorem eq_atMinute_iff {s u : Time} {n : Nat} (h : n < 1440) :
    s = atMinute u n h ↔
      60 * s.hour + s.minute = n ∧ s.second = u.second ∧ s.nanosecond = u.nanosecond := by
  have hs := s.valid
  rw [atMinute, Time.mk.injEq]
  omega

/-- The day that a count of minutes from midnight on belongs to, up to a day before and after. -/
theorem dayOfMinutes_eq_some_iff {n : Int} (hn : -1440 ≤ n ∧ n < 2880) :
    (if n < 0 then d.previous? else if n < 1440 then some d else d.next?) = some e ↔
      e.number = d.number + n / 1440 := by
  split_ifs with hbefore hwithin
  · rw [Date.previous?_eq_some_iff]
    omega
  · rw [Option.some.injEq, ← Date.number_injective.eq_iff]
    omega
  · rw [Date.next?_eq_some_iff]
    omega

/-- An offset of less than a day is taken off by going to the day before or after. -/
theorem minus?_eq_some_iff (hoffset : -1440 < offset ∧ offset < 1440) :
    t.minus? offset = some v ↔ v.Precedes t offset := by
  have ht := t.minutes_bounds
  have hv := v.minutes_bounds
  have hn : -1440 ≤ t.minutes - offset ∧ t.minutes - offset < 2880 := by omega
  have hday : ∀ e : Date, _ ↔ e.number = t.date.number + (t.minutes - offset) / 1440 := fun e =>
    dayOfMinutes_eq_some_iff (e := e) hn
  unfold minus?
  rw [Option.map_eq_some_iff]
  simp only [hday]
  unfold Precedes instant
  constructor
  · rintro ⟨e, he, rfl⟩
    obtain ⟨hminutes, hsecond, hnanosecond⟩ := (eq_atMinute_iff (u := t.time)
      (n := ((t.minutes - offset) % 1440).toNat) (by omega)).mp rfl
    refine ⟨?_, hsecond, hnanosecond⟩
    unfold minutes at *
    dsimp only
    omega
  · rintro ⟨hinstant, hsecond, hnanosecond⟩
    refine ⟨v.date, by omega, ?_⟩
    have htime : v.time = atMinute t.time ((t.minutes - offset) % 1440).toNat (by omega) := by
      rw [eq_atMinute_iff]
      refine ⟨?_, hsecond, hnanosecond⟩
      have hminutes : v.minutes = 60 * v.time.hour + v.time.minute := rfl
      omega
    rw [← htime]

/-- Away from the ends of the calendar every offset of less than a day can be taken off. -/
theorem admits_of_year (hyear : minYear < t.date.year ∧ t.date.year < maxYear)
    (hoffset : -1440 < offset ∧ offset < 1440) : t.Admits offset := by
  obtain ⟨before, hbefore⟩ := Date.exists_previous? hyear.1
  obtain ⟨after, hafter⟩ := Date.exists_next? hyear.2
  obtain ⟨v, hv⟩ : ∃ v, t.minus? offset = some v := by
    unfold minus?
    dsimp only
    split_ifs
    · rw [hbefore]
      exact ⟨_, rfl⟩
    · exact ⟨_, rfl⟩
    · rw [hafter]
      exact ⟨_, rfl⟩
  exact ⟨hoffset, v, (minus?_eq_some_iff hoffset).mp hv⟩

end DateTime

end FormatInverse.Calendar
