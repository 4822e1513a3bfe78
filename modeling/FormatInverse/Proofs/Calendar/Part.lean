import Mathlib
import FormatInverse.Proofs.Calendar.Format
import FormatInverse.Proofs.Text.Numeral

/-!
# Date-times written in numbers

A written date-time is a list of parts, fields with their digits and characters between them.  The
parts give the text of a date-time (`Part.written`) and the format of that text (`Part.format`).

* `Spells`                  a text spells the parts if they stand in it one after the other, with any
                            white space where a part is white space;
* `Spells.readItems?_eq`    what spells the parts is read as exactly their numbers;
* `read?_written_eq_none`   a text with fewer of a literal than the format is not read;
* `Fields.local?_holding`, `Fields.startOfDay?_holding`  the date-time of the numbers.
-/

namespace FormatInverse.Calendar

/-! ## numeric fields -/

/-- the fields that are written as numbers -/
inductive Numeric where
  | year
  | month
  | day
  | hour
  | minute
  | second
  deriving DecidableEq, Repr

variable {c : Char} {f : Fields} {t : DateTime} {s rest digits : Text}

/-- The year has room in four digits. -/
def DateTime.HasFourDigitYear (t : DateTime) : Prop :=
  0 ≤ t.date.year ∧ t.date.year ≤ 9999

theorem Date.day_le (d : Date) : d.day ≤ 31 := by
  obtain ⟨-, -, -, -, -, hday⟩ := d.valid
  apply hday.trans
  unfold daysInMonth
  split_ifs <;> omega

namespace Numeric

def field : Numeric → Field
  | year => .year
  | month => .month
  | day => .day
  | hour => .hour24
  | minute => .minute
  | second => .second

/-- the number of digits -/
def width : Numeric → Nat
  | year => 4
  | _ => 2

def value (t : DateTime) : Numeric → Nat
  | year => t.date.year.toNat
  | month => t.date.month
  | day => t.date.day
  | hour => t.time.hour
  | minute => t.time.minute
  | second => t.time.second

/-- the field with zeros in front -/
def written (t : DateTime) (u : Numeric) : Text := Text.padded u.width (u.value t)

/-- The fields with one more of them. -/
def put? : Numeric → Fields → Nat → Option Fields
  | year, f, n => f.withYear? n
  | month, f, n => f.withMonth? n
  | day, f, n => f.withDay? n
  | hour, f, n => f.withHour24? n
  | minute, f, n => f.withMinute? n
  | second, f, n => f.withSecond? n

theorem field_injective : Function.Injective field := by
  intro u v h
  cases u <;> cases v <;> simp [field] at h ⊢

theorem width_pos (u : Numeric) : 0 < u.width := by
  cases u <;> decide

theorem field_mem_codes (u : Numeric) : u.field ∈ codes.map (·.2) := by
  cases u <;> decide

theorem isDigit_of_mem_written {u : Numeric} (hc : c ∈ u.written t) : c.isDigit = true :=
  Text.isDigit_of_mem_padded hc

/-- The fields of a date-time have room in their digits, if the year has. -/
theorem value_lt (ht : t.HasFourDigitYear) (u : Numeric) :
    u.value t < 10 ^ u.width := by
  obtain ⟨-, -, -, hmonth, -, -⟩ := t.date.valid
  obtain ⟨hhour, hminute, hsecond, -⟩ := t.time.valid
  have hday := t.date.day_le
  have hyear := ht.2
  cases u <;> simp only [value, width] <;> omega

theorem length_written (ht : t.HasFourDigitYear) (u : Numeric) : (u.written t).length = u.width :=
  Text.length_padded u.width_pos (value_lt ht u)

theorem written_ne_nil (ht : t.HasFourDigitYear) (u : Numeric) :
    u.written t ≠ [] := by
  apply List.ne_nil_of_length_pos
  rw [length_written ht]
  exact u.width_pos

/-! ## reading a numeric field -/

theorem trimStart_digits (hdigits : ∀ c ∈ digits, c.isDigit = true) (hne : digits ≠ [])
    (rest : Text) : Text.trimStart (digits ++ rest) = digits ++ rest := by
  obtain ⟨d, ds, rfl⟩ := List.exists_cons_of_ne_nil hne
  exact Text.trimStart_cons (Text.isBlank_of_isDigit (hdigits d List.mem_cons_self)) _

theorem scanPair?_digits (hdigits : ∀ c ∈ digits, c.isDigit = true) (hne : digits ≠ [])
    (hlen : digits.length ≤ 2) (hend : digits.length = 2 ∨ ∀ c ∈ rest.head?, c.isDigit = false) :
    scanPair? (digits ++ rest) = some (Text.value digits, rest) := by
  unfold scanPair?
  rw [trimStart_digits hdigits hne]
  exact scanNumber?_digits hdigits (List.length_pos_iff.mpr hne) hlen hend

theorem scanYear?_digits (hdigits : ∀ c ∈ digits, c.isDigit = true) (hne : digits ≠ [])
    (hlen : digits.length ≤ 4) (hend : digits.length = 4 ∨ ∀ c ∈ rest.head?, c.isDigit = false) :
    scanYear? (digits ++ rest) = some ((Text.value digits : Int), rest) := by
  have hnumber := scanNumber?_digits hdigits (List.length_pos_iff.mpr hne) hlen hend
  obtain ⟨d, ds, rfl⟩ := List.exists_cons_of_ne_nil hne
  have hd : d.isDigit = true := hdigits d List.mem_cons_self
  unfold scanYear?
  rw [trimStart_digits hdigits hne]
  split
  · next heq =>
    rw [(List.cons.inj heq).1] at hd
    exact absurd hd (by decide)
  · next heq =>
    rw [(List.cons.inj heq).1] at hd
    exact absurd hd (by decide)
  · rw [hnumber]
    rfl

/-- Digits that nothing can be added to are taken as the number of the field. -/
theorem scan?_digits (u : Numeric) (f : Fields) (hdigits : ∀ c ∈ digits, c.isDigit = true)
    (hne : digits ≠ []) (hlen : digits.length ≤ u.width)
    (hend : digits.length = u.width ∨ ∀ c ∈ rest.head?, c.isDigit = false) :
    u.field.scan? f (digits ++ rest) = (u.put? f (Text.value digits)).map (·, rest) := by
  have hput : ∀ o : Option Fields, (o.bind fun g => some (g, rest)) = o.map (·, rest) := by
    intro o
    cases o <;> rfl
  have hpair : digits.length ≤ 2 → (digits.length = 2 ∨ ∀ c ∈ rest.head?, c.isDigit = false) →
      ∀ put : Nat → Option Fields,
        ((scanPair? (digits ++ rest)).bind fun p => (put p.1).bind fun g => some (g, p.2))
          = (put (Text.value digits)).map (·, rest) := by
    intro hlen hend put
    rw [scanPair?_digits hdigits hne hlen hend]
    exact hput _
  cases u with
  | year =>
    show ((scanYear? (digits ++ rest)).bind fun p =>
      (f.withYear? p.1).bind fun g => some (g, p.2)) = _
    rw [scanYear?_digits hdigits hne hlen hend]
    exact hput _
  | month => exact hpair hlen hend f.withMonth?
  | day => exact hpair hlen hend f.withDay?
  | hour => exact hpair hlen hend f.withHour24?
  | minute => exact hpair hlen hend f.withMinute?
  | second => exact hpair hlen hend f.withSecond?

theorem scan?_written (ht : t.HasFourDigitYear) (u : Numeric) (f : Fields) (rest : Text) :
    u.field.scan? f (u.written t ++ rest) = (u.put? f (u.value t)).map (·, rest) := by
  have hlen := length_written ht u
  rw [scan?_digits u f (fun c hc => isDigit_of_mem_written hc) (written_ne_nil ht u) hlen.le
    (Or.inl hlen), written, Text.value_padded]

end Numeric

/-! ## the fields of a date-time -/

namespace Fields

/-- the fields that hold some numbers of a date-time, and nothing else -/
def holding (t : DateTime) (us : List Numeric) : Fields where
  year := if .year ∈ us then some t.date.year else none
  yearOfCentury := none
  month := if .month ∈ us then some t.date.month else none
  day := if .day ∈ us then some t.date.day else none
  weekday := none
  half := if .hour ∈ us then some (t.time.hour / 12) else none
  hourOfHalf := if .hour ∈ us then some (t.time.hour % 12) else none
  minute := if .minute ∈ us then some t.time.minute else none
  second := if .second ∈ us then some t.time.second else none
  nanosecond := none
  offset := none

theorem holding_nil (t : DateTime) : holding t [] = empty := by
  simp [holding, empty]

/-- A field that holds a value, or nothing yet, can hold the same value. -/
theorem agree?_ite {α : Type} [DecidableEq α] (p : Prop) [Decidable p] (v : α) :
    agree? (if p then some v else none) v = some (some v) := by
  unfold agree?
  split_ifs <;> simp_all

theorem put?_holding (ht : 0 ≤ t.date.year) (us : List Numeric) (u : Numeric) :
    u.put? (holding t us) (u.value t) = some (holding t (us ++ [u])) := by
  obtain ⟨-, -, hmonth₁, hmonth₂, hday₁, -⟩ := t.date.valid
  obtain ⟨hhour, hminute, hsecond, -⟩ := t.time.valid
  cases u with
  | year =>
    have hyear : (t.date.year.toNat : Int) = t.date.year := Int.toNat_of_nonneg ht
    simp [Numeric.put?, Numeric.value, withYear?, holding, hyear, agree?_ite]
  | month =>
    have hrange : 1 ≤ t.date.month ∧ t.date.month ≤ 12 := ⟨hmonth₁, hmonth₂⟩
    simp [Numeric.put?, Numeric.value, withMonth?, agreeIn?, holding, hrange, agree?_ite]
  | day =>
    have hrange : 1 ≤ t.date.day ∧ t.date.day ≤ 31 := ⟨hday₁, t.date.day_le⟩
    simp [Numeric.put?, Numeric.value, withDay?, agreeIn?, holding, hrange, agree?_ite]
  | hour =>
    have hrange : t.time.hour ≤ 23 := by omega
    simp [Numeric.put?, Numeric.value, withHour24?, holding, hrange, agree?_ite]
  | minute =>
    have hrange : t.time.minute ≤ 59 := by omega
    simp [Numeric.put?, Numeric.value, withMinute?, agreeIn?, holding, hrange, agree?_ite]
  | second =>
    have hrange : t.time.second ≤ 60 := by omega
    simp [Numeric.put?, Numeric.value, withSecond?, agreeIn?, holding, hrange, agree?_ite]

end Fields

/-! ## parts -/

/-- a part of a written date-time -/
inductive Part where
  | field (u : Numeric)
  | literal (c : Char)
  deriving DecidableEq, Repr

namespace Part

/-- the part of a date-time as it is written -/
def written (t : DateTime) : Part → Text
  | field u => u.written t
  | literal c => [c]

/-- the part as a format writes it -/
def format : Part → Text
  | field u => u.field.written
  | literal c => [c]

def item : Part → Item
  | field u => .field u.field
  | literal c => .literal c

def numeric? : Part → Option Numeric
  | field u => some u
  | literal _ => none

theorem item_injective : Function.Injective item := by
  intro p q h
  cases p with
  | field u =>
    cases q with
    | field v => rw [Numeric.field_injective (Item.field.inj h)]
    | literal c => cases h
  | literal c =>
    cases q with
    | field v => cases h
    | literal d => rw [Item.literal.inj h]

end Part

variable {ps qs : List Part} {is : List Item} {us : List Numeric}

/-- the numbers of the parts, in order -/
def numerics (ps : List Part) : List Numeric := ps.filterMap Part.numeric?

theorem mem_numerics {u : Numeric} : u ∈ numerics ps ↔ .field u ∈ ps := by
  unfold numerics
  rw [List.mem_filterMap]
  constructor
  · rintro ⟨p, hp, hu⟩
    cases p with
    | field v =>
      obtain rfl : v = u := Option.some.inj hu
      exact hp
    | literal c => cases hu
  · intro hu
    exact ⟨.field u, hu, rfl⟩

theorem items_format (h : ∀ c, .literal c ∈ ps → c ≠ '%') (rest : Text) :
    items (ps.flatMap Part.format ++ rest) = ps.map Part.item ++ items rest := by
  induction ps with
  | nil => rfl
  | cons p ps ih =>
    have ih' := ih fun c hc => h c (List.mem_cons_of_mem p hc)
    rw [List.flatMap_cons, List.append_assoc, List.map_cons, List.cons_append]
    cases p with
    | field u =>
      show items (u.field.written ++ _) = _
      rw [items_written u.field_mem_codes, ih']
      rfl
    | literal c =>
      show items (c :: (ps.flatMap Part.format ++ rest)) = _
      rw [items_literal (h c List.mem_cons_self), ih']
      rfl

/-! ## texts that spell the parts -/

/-- A text spells the parts if they stand in it one after the other; where a part is white space any
white space can stand, also none. -/
inductive Spells (t : DateTime) : List Part → Text → Prop
  | nil : Spells t [] []
  | blank {c : Char} {s u : Text} {ps : List Part} (hc : Text.isBlank c = true)
      (hs : ∀ b ∈ s, Text.isBlank b = true) (h : Spells t ps u) :
      Spells t (.literal c :: ps) (s ++ u)
  | literal {c : Char} {u : Text} {ps : List Part} (hc : Text.isBlank c = false)
      (h : Spells t ps u) : Spells t (.literal c :: ps) (c :: u)
  | field {n : Numeric} {u : Text} {ps : List Part} (h : Spells t ps u) :
      Spells t (.field n :: ps) (n.written t ++ u)

namespace Spells

variable {u : Text}

theorem written (t : DateTime) (ps : List Part) : Spells t ps (ps.flatMap (Part.written t)) := by
  induction ps with
  | nil => exact .nil
  | cons p ps ih =>
    rw [List.flatMap_cons]
    cases p with
    | field n => exact .field ih
    | literal c =>
      by_cases hc : Text.isBlank c = true
      · exact .blank hc (by simpa [Part.written] using hc) ih
      · exact .literal (Bool.not_eq_true _ ▸ hc) ih

theorem trimStart (ht : t.HasFourDigitYear) (h : Spells t ps u) :
    Spells t ps (Text.trimStart u) := by
  induction h with
  | nil => exact .nil
  | @blank c s u ps hc hs h ih =>
    rw [Text.trimStart_append_of_blank hs]
    exact .blank (s := []) hc (by simp) ih
  | @literal c u ps hc h ih =>
    rw [Text.trimStart_cons hc]
    exact .literal hc h
  | @field n u ps h ih =>
    rw [Numeric.trimStart_digits (fun c hc => Numeric.isDigit_of_mem_written hc)
      (Numeric.written_ne_nil ht n)]
    exact .field h

theorem trimEnd (h : Spells t ps u) : Spells t ps (Text.trimEnd u) := by
  induction h with
  | nil => exact .nil
  | @blank c s u ps hc hs h ih =>
    rw [Text.trimEnd_append]
    split_ifs with hu
    -- with nothing behind it, the white space is at the end of the text
    · rw [hu] at ih
      rw [← List.append_nil (Text.trimEnd s)]
      exact .blank hc (fun b hb => hs b ((Text.trimEnd_prefix s).subset hb)) ih
    · exact .blank hc hs ih
  | @literal c u ps hc h ih =>
    show Spells t _ (Text.trimEnd ([c] ++ u))
    rw [Text.trimEnd_append_of_getLast? (by simpa using hc)]
    exact .literal hc ih
  | @field n u ps h ih =>
    rw [Text.trimEnd_append_of_getLast?]
    · exact .field ih
    · intro c hc
      exact Text.isBlank_of_isDigit (Numeric.isDigit_of_mem_written (List.mem_of_getLast? hc))

/-- White space around a text, and white space at its ends that belongs to it, does not matter. -/
theorem trim {before after : Text} (ht : t.HasFourDigitYear)
    (hbefore : ∀ b ∈ before, Text.isBlank b = true) (hafter : ∀ b ∈ after, Text.isBlank b = true)
    (h : Spells t ps u) : Spells t ps (Text.trim (before ++ u ++ after)) := by
  rw [Text.trim_surround hbefore hafter, Text.trim_eq]
  exact (h.trimStart ht).trimEnd

theorem ne_nil {n : Numeric} (ht : t.HasFourDigitYear) (h : Spells t ps u)
    (hn : .field n ∈ ps) : u ≠ [] := by
  induction h with
  | nil => cases hn
  | @blank c s u ps hc hs h ih =>
    have hne := ih ((List.mem_cons.mp hn).resolve_left (by simp))
    simp [hne]
  | literal hc h ih => exact List.cons_ne_nil _ _
  | @field m u ps h ih =>
    have hne := Numeric.written_ne_nil ht m
    simp [hne]

/-- A text that spells the parts is read as the numbers that they have, and used up. -/
theorem readItems?_eq (ht : t.HasFourDigitYear) (h : Spells t ps u)
    (us : List Numeric) (is : List Item) :
    Fields.readItems? (ps.map Part.item ++ is) (.holding t us) u
      = Fields.readItems? is (.holding t (us ++ numerics ps)) [] := by
  induction ps generalizing u us with
  | nil =>
    cases h
    rw [numerics, List.filterMap_nil, List.append_nil]
    rfl
  | cons p ps ih =>
    rw [List.map_cons, List.cons_append]
    cases h with
    | @blank c s u ps hc hs h =>
      show Fields.readItems? (.literal c :: _) _ _ = _
      rw [Fields.readItems?_blank hc, Text.trimStart_append_of_blank hs]
      exact ih (h.trimStart ht) us
    | @literal c u ps hc h =>
      show Fields.readItems? (.literal c :: _) _ _ = _
      rw [Fields.readItems?_literal hc]
      exact ih h us
    | @field n u ps h =>
      show Fields.readItems? (.field n.field :: _) _ _ = _
      rw [Fields.readItems?_cons]
      show ((n.field.scan? _ _).bind _) = _
      rw [Numeric.scan?_written ht, Fields.put?_holding ht.1, Option.map_some, Option.bind_some]
      show Fields.readItems? (ps.map Part.item ++ is) (.holding t (us ++ [n])) u = _
      rw [ih h, List.append_assoc]
      rfl

/-- The same by the format of the parts, which may go on. -/
theorem read?_append (ht : t.HasFourDigitYear)
    (hps : ∀ c, .literal c ∈ ps → c ≠ '%') (h : Spells t ps u) (format : Text) :
    Fields.read? (ps.flatMap Part.format ++ format) u
      = Fields.readItems? (items format) (.holding t (numerics ps)) [] := by
  unfold Fields.read?
  rw [items_format hps, ← Fields.holding_nil t, h.readItems?_eq ht, List.nil_append]

end Spells

/-- A text that begins and ends with numbers has no white space at its ends. -/
theorem trim_written {u v : Numeric} (ht : t.HasFourDigitYear)
    (hhead : ps.head? = some (.field u)) (hlast : ps.getLast? = some (.field v)) :
    Text.trim (ps.flatMap (Part.written t)) = ps.flatMap (Part.written t) := by
  have hstart : Text.trimStart (ps.flatMap (Part.written t)) = ps.flatMap (Part.written t) := by
    obtain ⟨qs, rfl⟩ := List.head?_eq_some_iff.mp hhead
    exact Numeric.trimStart_digits (fun c hc => Numeric.isDigit_of_mem_written hc)
      (Numeric.written_ne_nil ht u) _
  rw [Text.trim_eq, hstart]
  obtain ⟨qs, rfl⟩ := List.getLast?_eq_some_iff.mp hlast
  apply Text.trimEnd_of_getLast?
  intro c hc
  rw [List.flatMap_append, List.flatMap_singleton] at hc
  have hne : Part.written t (.field v) ≠ [] := Numeric.written_ne_nil ht v
  rw [List.getLast?_append_of_ne_nil _ hne] at hc
  exact Text.isBlank_of_isDigit (Numeric.isDigit_of_mem_written (List.mem_of_getLast? hc))

/-! ## texts with too few literals -/

theorem count_written (hc : c.isDigit = false) (t : DateTime) (ps : List Part) :
    (ps.flatMap (Part.written t)).count c = ps.count (.literal c) := by
  induction ps with
  | nil => rfl
  | cons p ps ih =>
    rw [List.flatMap_cons, List.count_append, ih, List.count_cons, Nat.add_comm]
    congr 1
    cases p with
    | field n =>
      have hnot : c ∉ n.written t := by
        intro hmem
        rw [Numeric.isDigit_of_mem_written hmem] at hc
        cases hc
      show (n.written t).count c = _
      rw [List.count_eq_zero_of_not_mem hnot]
      rfl
    | literal d => simp [Part.written, List.count_singleton]

theorem count_item (c : Char) (ps : List Part) :
    (ps.map Part.item).count (.literal c) = ps.count (.literal c) :=
  List.count_map_of_injective ps Part.item Part.item_injective (.literal c)

/-- A format with more of a literal than the text has does not fit. -/
theorem read?_written_eq_none (hdigit : c.isDigit = false) (hblank : Text.isBlank c = false)
    (hqs : ∀ c, .literal c ∈ qs → c ≠ '%') (hlt : ps.count (.literal c) < qs.count (.literal c))
    (t : DateTime) (format : Text) :
    Fields.read? (qs.flatMap Part.format ++ format) (ps.flatMap (Part.written t)) = none := by
  apply Option.eq_none_iff_forall_ne_some.mpr
  intro g hg
  unfold Fields.read? at hg
  rw [items_format hqs] at hg
  have hle := Fields.count_le_of_readItems? hblank hg
  rw [List.count_append, count_item, count_written hdigit] at hle
  omega

/-! ## the date-time that the fields hold -/

/-- A time of day as far as its numbers are among `us`; the others are zero. -/
def Time.only (us : List Numeric) (time : Time) : Time where
  hour := if .hour ∈ us then time.hour else 0
  minute := if .minute ∈ us then time.minute else 0
  second := if .second ∈ us then time.second else 0
  nanosecond := 0
  valid := by
    have := time.valid
    split_ifs <;> omega

theorem Time.only_eq_midnight (hhour : .hour ∉ us) (hminute : .minute ∉ us)
    (hsecond : .second ∉ us) (time : Time) : time.only us = midnight := by
  simp [only, midnight, hhour, hminute, hsecond]

/-- The numbers of a date are there. -/
def HasDate (us : List Numeric) : Prop := .year ∈ us ∧ .month ∈ us ∧ .day ∈ us

namespace Fields

theorem date?_holding (h : HasDate us) (t : DateTime) : (holding t us).date? = some t.date := by
  obtain ⟨hyear, hmonth, hday⟩ := h
  have hof : Date.of? t.date.year t.date.month t.date.day = some t.date := dif_pos t.date.valid
  simp [date?, year?, holding, hyear, hmonth, hday, hof]

theorem time?_holding (hhour : .hour ∈ us) (hminute : .minute ∈ us) (t : DateTime) :
    (holding t us).time? = some (t.time.only us) := by
  obtain ⟨hh, hm, hs, -⟩ := t.time.valid
  have hsum : 12 * (t.time.hour / 12) + t.time.hour % 12 = t.time.hour := Nat.div_add_mod _ _
  by_cases hsecond : Numeric.second ∈ us
  · have hne : t.time.second ≠ 60 := by omega
    simp [time?, holding, Time.only, hhour, hminute, hsecond, hsum, clock?, hh, hm, hs, hne]
  · simp [time?, holding, Time.only, hhour, hminute, hsecond, hsum, clock?, hh, hm]

theorem time?_holding_eq_none (hhour : .hour ∉ us) (t : DateTime) :
    (holding t us).time? = none := by
  simp [time?, holding, hhour]

theorem local?_holding (hdate : HasDate us) (hhour : .hour ∈ us) (hminute : .minute ∈ us)
    (t : DateTime) : (holding t us).local? = some ⟨t.date, t.time.only us⟩ := by
  simp [local?, date?_holding hdate, time?_holding hhour hminute]

theorem local?_holding_eq_none (hhour : .hour ∉ us) (t : DateTime) :
    (holding t us).local? = none := by
  simp [local?, time?_holding_eq_none hhour]

/-- No offset is written. -/
theorem universal?_holding (us : List Numeric) (t : DateTime) :
    (holding t us).universal? = none := rfl

theorem startOfDay?_holding (hdate : HasDate us) (t : DateTime) :
    (holding t us).startOfDay? = some ⟨t.date, .midnight⟩ := by
  simp [startOfDay?, date?_holding hdate]

end Fields

end FormatInverse.Calendar
