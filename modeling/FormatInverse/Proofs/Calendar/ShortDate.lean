import FormatInverse.Calendar.Parse
import FormatInverse.Proofs.Calendar.Part
import FormatInverse.Proofs.Calendar.Timestamp

/-!
# Short dates without a hint

A short date of a culture, with a time of day or without, is read back without a hint
(`parse?_shortText`).  No form that is tried before it takes the text for anything else:

* a timestamp is longer (`length_of_readTimestamp?`);
* a form with a T, with another separator or with more of a time of day has a literal that the text
  lacks (`read?_eq_none_of_...`);
* the international forms read a day or a month for the year, then half of the year for the day, and
  get stuck behind the other half (`read?_international_eq_none`).  Only a short date that begins
  with its year is read by them, and to the same value.
-/

namespace FormatInverse.Calendar

variable {c sep sep' : Char} {order order' : DateOrder} {t : DateTime} {is : List Item}
  {digits rest format before after : Text}

/-! ## the text -/

/-- how much of the time of day is written behind a date -/
inductive Clock where
  | nothing
  | minutes
  | seconds
  deriving DecidableEq, Repr

variable {clock clock' : Clock}

def Clock.parts : Clock → List Part
  | nothing => []
  | minutes => [.literal ' ', .field .hour, .literal ':', .field .minute]
  | seconds =>
    [.literal ' ', .field .hour, .literal ':', .field .minute, .literal ':', .field .second]

/-- the numbers of a date in an order -/
def dateNumerics : DateOrder → List Numeric
  | .monthDayYear => [.month, .day, .year]
  | .dayMonthYear => [.day, .month, .year]
  | .yearMonthDay => [.year, .month, .day]

def dateParts (order : DateOrder) (separator : Char) : List Part :=
  ((dateNumerics order).map Part.field).intersperse (.literal separator)

/-- a short date and a time of day behind it -/
def shortParts (order : DateOrder) (separator : Char) (clock : Clock) : List Part :=
  dateParts order separator ++ clock.parts

def shortText (order : DateOrder) (separator : Char) (clock : Clock) (t : DateTime) : Text :=
  (shortParts order separator clock).flatMap (Part.written t)

theorem hasDate_shortParts (order : DateOrder) (sep : Char) (clock : Clock) :
    HasDate (numerics (shortParts order sep clock)) := by
  cases order <;> simp [HasDate, mem_numerics, shortParts, dateParts, dateNumerics]

/-- The numbers of the date do not matter for the time of day. -/
theorem only_numerics_shortParts (order : DateOrder) (sep : Char) (clock : Clock) (time : Time) :
    time.only (numerics (shortParts order sep clock)) = time.only (numerics clock.parts) := by
  cases order <;> cases clock <;> rfl

theorem length_shortText (ht : t.HasFourDigitYear) (order : DateOrder)
    (sep : Char) (clock : Clock) : (shortText order sep clock t).length ≤ 19 := by
  have hlen := Numeric.length_written ht
  cases order <;> cases clock <;>
    simp [shortText, shortParts, dateParts, dateNumerics, Clock.parts, Part.written, hlen,
      Numeric.width]

/-! ## its literals -/

theorem count_dateParts (order : DateOrder) (sep c : Char) :
    (dateParts order sep).count (.literal c) = if sep = c then 2 else 0 := by
  cases order <;> by_cases h : sep = c <;> simp [dateParts, dateNumerics, h]

theorem count_shortParts (hblank : c ≠ ' ') (hcolon : c ≠ ':') (order : DateOrder) (sep : Char)
    (clock : Clock) :
    (shortParts order sep clock).count (.literal c) = if sep = c then 2 else 0 := by
  have hclock : clock.parts.count (.literal c) = 0 := by
    cases clock <;> simp [Clock.parts, hblank.symm, hcolon.symm]
  rw [shortParts, List.count_append, count_dateParts, hclock, Nat.add_zero]

theorem isDigit_separator (hsep : sep ∈ ['/', '-', '.']) : sep.isDigit = false := by
  revert sep
  simp

theorem isBlank_separator (hsep : sep ∈ ['/', '-', '.']) : Text.isBlank sep = false := by
  revert sep
  simp [Text.isBlank, CharClass.has, CharClass.blank]

theorem ne_percent_of_mem_shortParts (hsep : sep ∈ ['/', '-', '.'])
    (hc : .literal c ∈ shortParts order sep clock) : c ≠ '%' := by
  rintro rfl
  have hpos := List.count_pos_iff.mpr hc
  rw [count_shortParts (by decide) (by decide),
    if_neg (ne_of_mem_of_not_mem hsep (by decide))] at hpos
  exact absurd hpos (by decide)

theorem ne_percent_of_mem_dateParts (hsep : sep ∈ ['/', '-', '.'])
    (hc : .literal c ∈ dateParts order sep) : c ≠ '%' := by
  have hc' : .literal c ∈ shortParts order sep .nothing := List.mem_append_left _ hc
  exact ne_percent_of_mem_shortParts hsep hc'

/-! ## its format -/

theorem shortDate_eq (order : DateOrder) (sep : Char) :
    shortDate order sep = (dateParts order sep).flatMap Part.format := by
  cases order <;> rfl

theorem isoDate_eq : isoDate = shortDate .yearMonthDay '-' := rfl

theorem withSeconds_eq : withSeconds = Clock.seconds.parts.flatMap Part.format := rfl

theorem withMinutes_eq : withMinutes = Clock.minutes.parts.flatMap Part.format := rfl

/-- a format that can be left out at the end of a text -/
def IsOptional (format : Text) : Prop :=
  ∀ f, Fields.readItems? (items format) f [] = some f

theorem isOptional_nil : IsOptional [] := by
  intro f
  rw [items_nil]
  rfl

theorem isOptional_fraction : IsOptional "%.f".toList := by
  intro f
  have hitems : items "%.f".toList = [.field .fraction] := by decide +kernel
  rw [hitems, Fields.readItems?_fraction_nil]
  rfl

/-- A short date is read by its own format, and by what the format may have behind it. -/
theorem read?_shortText (ht : t.HasFourDigitYear)
    (hsep : sep ∈ ['/', '-', '.']) (hformat : IsOptional format) :
    Fields.read? (shortDate order sep ++ clock.parts.flatMap Part.format ++ format)
        (shortText order sep clock t)
      = some (.holding t (numerics (shortParts order sep clock))) := by
  have hps : ∀ c, .literal c ∈ shortParts order sep clock → c ≠ '%' := fun c hc =>
    ne_percent_of_mem_shortParts hsep hc
  rw [shortDate_eq, ← List.flatMap_append]
  exact ((Spells.written t _).read?_append ht hps format).trans (hformat _)

theorem readLocal?_shortText (ht : t.HasFourDigitYear)
    (hsep : sep ∈ ['/', '-', '.']) (hformat : IsOptional format) (hclock : clock ≠ .nothing) :
    readLocal? (shortDate order sep ++ clock.parts.flatMap Part.format ++ format)
        (shortText order sep clock t)
      = some ⟨t.date, t.time.only (numerics clock.parts)⟩ := by
  have htime : .hour ∈ numerics (shortParts order sep clock) ∧
      .minute ∈ numerics (shortParts order sep clock) := by
    cases clock <;> simp [mem_numerics, shortParts, Clock.parts] at hclock ⊢
  unfold readLocal?
  rw [read?_shortText ht hsep hformat, Option.bind_some,
    Fields.local?_holding (hasDate_shortParts order sep clock) htime.1 htime.2,
    only_numerics_shortParts]

theorem readDate?_shortText (ht : t.HasFourDigitYear) (hsep : sep ∈ ['/', '-', '.']) :
    readDate? (shortDate order sep) (shortText order sep .nothing t)
      = some ⟨t.date, .midnight⟩ := by
  have hread : Fields.read?
        (shortDate order sep ++ Clock.nothing.parts.flatMap Part.format ++ [])
        (shortText order sep .nothing t) = _ :=
    read?_shortText ht hsep isOptional_nil
  rw [Clock.parts, List.flatMap_nil, List.append_nil, List.append_nil] at hread
  unfold readDate?
  rw [hread, Option.bind_some,
    Fields.startOfDay?_holding (hasDate_shortParts order sep .nothing)]

/-! ## formats that do not fit -/

theorem readTimestamp?_shortText (ht : t.HasFourDigitYear) :
    readTimestamp? (shortText order sep clock t) = none := by
  apply Option.eq_none_iff_forall_ne_some.mpr
  intro v hv
  have hge := length_of_readTimestamp? hv
  have hle := length_shortText ht order sep clock
  omega

theorem read?_eq_none_of_separator (hsep' : sep' ∈ ['/', '-', '.']) (hne : sep ≠ sep')
    (t : DateTime) (format : Text) :
    Fields.read? (shortDate order' sep' ++ format) (shortText order sep clock t) = none := by
  have hps : ∀ c, .literal c ∈ dateParts order' sep' → c ≠ '%' := fun c hc =>
    ne_percent_of_mem_dateParts hsep' hc
  have hblank : sep' ≠ ' ' := ne_of_mem_of_not_mem hsep' (by decide)
  have hcolon : sep' ≠ ':' := ne_of_mem_of_not_mem hsep' (by decide)
  rw [shortDate_eq]
  refine read?_written_eq_none (isDigit_separator hsep') (isBlank_separator hsep') hps ?_ t format
  rw [count_shortParts hblank hcolon, if_neg hne, count_dateParts, if_pos rfl]
  exact Nat.two_pos

theorem read?_eq_none_of_clock (hsep : sep ∈ ['/', '-', '.']) (hsep' : sep' ∈ ['/', '-', '.'])
    (hlt : clock.parts.count (.literal ':') < clock'.parts.count (.literal ':'))
    (t : DateTime) (format : Text) :
    Fields.read? (shortDate order' sep' ++ clock'.parts.flatMap Part.format ++ format)
      (shortText order sep clock t) = none := by
  have hps : ∀ c, .literal c ∈ shortParts order' sep' clock' → c ≠ '%' := fun c hc =>
    ne_percent_of_mem_shortParts hsep' hc
  have hcolon : sep ≠ ':' := ne_of_mem_of_not_mem hsep (by decide)
  have hcolon' : sep' ≠ ':' := ne_of_mem_of_not_mem hsep' (by decide)
  rw [shortDate_eq, ← List.flatMap_append]
  refine read?_written_eq_none (c := ':') (by decide) (by decide) hps ?_ t format
  rw [shortParts, shortParts, List.count_append, List.count_append, count_dateParts,
    count_dateParts, if_neg hcolon, if_neg hcolon']
  omega

theorem read?_eq_none_of_letter (hsep : sep ∈ ['/', '-', '.']) (t : DateTime) (format : Text) :
    Fields.read? (isoDate ++ 'T' :: format) (shortText order sep clock t) = none := by
  have hformat : isoDate ++ 'T' :: format
      = (dateParts .yearMonthDay '-' ++ [Part.literal 'T']).flatMap Part.format ++ format := rfl
  have hps : ∀ c, .literal c ∈ dateParts .yearMonthDay '-' ++ [Part.literal 'T'] → c ≠ '%' := by
    intro c hc
    rcases List.mem_append.mp hc with hc | hc
    · exact ne_percent_of_mem_dateParts (by decide) hc
    · obtain rfl : c = 'T' := by simpa using hc
      decide
  rw [hformat]
  refine read?_written_eq_none (c := 'T') (by decide) (by decide) hps ?_ t format
  rw [count_shortParts (by decide) (by decide), if_neg (ne_of_mem_of_not_mem hsep (by decide))]
  simp

/-! ## the international forms -/

theorem shortText_eq {a b v : Numeric} (h : dateNumerics order = [a, b, v]) (sep : Char)
    (clock : Clock) (t : DateTime) :
    shortText order sep clock t
      = a.written t ++ sep :: (b.written t ++ sep :: (v.written t
        ++ clock.parts.flatMap (Part.written t))) := by
  simp [shortText, shortParts, dateParts, h, Part.written]

/-- Digits for a field, before what does not fit whatever the field is. -/
theorem readItems?_digits_eq_none {v : Numeric} (hdigits : ∀ c ∈ digits, c.isDigit = true)
    (hne : digits ≠ []) (hlen : digits.length ≤ v.width)
    (hend : digits.length = v.width ∨ ∀ c ∈ rest.head?, c.isDigit = false)
    (h : ∀ g, Fields.readItems? is g rest = none) (f : Fields) :
    Fields.readItems? (.field v.field :: is) f (digits ++ rest) = none := by
  rw [Fields.readItems?_cons]
  show (v.field.scan? f _).bind _ = none
  rw [v.scan?_digits f hdigits hne hlen hend]
  cases v.put? f (Text.value digits) with
  | none => rfl
  | some g => exact h g

/-- Two digits are read for the year, and the first half of the year for the day. -/
theorem readItems?_isoDate_eq_none {a b : Numeric} (ht : t.HasFourDigitYear)
    (ha : a.width = 2) (hb : b.width = 2)
    (h : ∀ g, Fields.readItems? is g ((Numeric.year.written t).drop 2 ++ rest) = none)
    (f : Fields) :
    Fields.readItems? ((dateParts .yearMonthDay '-').map Part.item ++ is) f
      (a.written t ++ '-' :: (b.written t ++ '-' :: (Numeric.year.written t ++ rest))) = none := by
  have hdigits : ∀ u : Numeric, ∀ c ∈ u.written t, c.isDigit = true := fun u c hc =>
    Numeric.isDigit_of_mem_written hc
  have hla : (a.written t).length = 2 := (Numeric.length_written ht a).trans ha
  have hlb : (b.written t).length = 2 := (Numeric.length_written ht b).trans hb
  have hyear : (Numeric.year.written t).length = 4 := Numeric.length_written ht .year
  have hhalf : ((Numeric.year.written t).take 2).length = 2 := by simp [hyear]
  have hblank : Text.isBlank '-' = false := by decide
  show Fields.readItems? (.field Numeric.year.field :: .literal '-' ::
    .field Numeric.month.field :: .literal '-' :: .field Numeric.day.field :: is) f _ = none
  apply readItems?_digits_eq_none (v := .year) (hdigits a) (Numeric.written_ne_nil ht a)
    (by rw [hla]; decide) (Or.inr (by simp))
  intro g
  rw [Fields.readItems?_literal hblank]
  apply readItems?_digits_eq_none (v := .month) (hdigits b) (Numeric.written_ne_nil ht b) hlb.le
    (Or.inl hlb)
  intro g
  rw [Fields.readItems?_literal hblank, ← List.take_append_drop 2 (Numeric.year.written t),
    List.append_assoc]
  exact readItems?_digits_eq_none (fun c hc => hdigits .year c (List.mem_of_mem_take hc))
    (List.ne_nil_of_length_pos (by omega)) hhalf.le (Or.inl hhalf) h g

/-- What follows the day in an international form would have to fit behind half of the year. -/
theorem read?_isoDate_append_eq_none (ht : t.HasFourDigitYear) (horder : order ≠ .yearMonthDay)
    (h : ∀ g, Fields.readItems? (items format) g
      ((Numeric.year.written t).drop 2 ++ clock.parts.flatMap (Part.written t)) = none) :
    Fields.read? (isoDate ++ format) (shortText order '-' clock t) = none := by
  have hps : ∀ c, .literal c ∈ dateParts .yearMonthDay '-' → c ≠ '%' := fun c hc =>
    ne_percent_of_mem_dateParts (by decide) hc
  unfold Fields.read?
  rw [isoDate_eq, shortDate_eq, items_format hps]
  cases order with
  | monthDayYear =>
    rw [shortText_eq (a := .month) (b := .day) (v := .year) rfl]
    exact readItems?_isoDate_eq_none ht rfl rfl h .empty
  | dayMonthYear =>
    rw [shortText_eq (a := .day) (b := .month) (v := .year) rfl]
    exact readItems?_isoDate_eq_none ht rfl rfl h .empty
  | yearMonthDay => exact absurd rfl horder

theorem length_drop_year (ht : t.HasFourDigitYear) :
    ((Numeric.year.written t).drop 2).length = 2 := by
  rw [List.length_drop, Numeric.length_written ht]
  rfl

theorem read?_isoDate_eq_none (ht : t.HasFourDigitYear) (horder : order ≠ .yearMonthDay) :
    Fields.read? isoDate (shortText order '-' clock t) = none := by
  have hlen := length_drop_year ht
  rw [← List.append_nil isoDate]
  apply read?_isoDate_append_eq_none ht horder
  intro g
  obtain ⟨d, ds, hhalf⟩ := List.exists_cons_of_length_eq_add_one hlen
  rw [items_nil, hhalf]
  rfl

/-- Half of the year is read for the hour, and no colon follows it. -/
theorem read?_isoClock_eq_none (ht : t.HasFourDigitYear)
    (horder : order ≠ .yearMonthDay) (format : Text) :
    Fields.read? (isoDate ++ (" %H:".toList ++ format)) (shortText order '-' clock t) = none := by
  have hlen := length_drop_year ht
  have hne : (Numeric.year.written t).drop 2 ≠ [] := List.ne_nil_of_length_pos (by omega)
  have hdigits : ∀ c ∈ (Numeric.year.written t).drop 2, c.isDigit = true := fun c hc =>
    Numeric.isDigit_of_mem_written (List.mem_of_mem_drop hc)
  have hps : ∀ c, .literal c ∈ [Part.literal ' ', .field .hour, .literal ':'] → c ≠ '%' := by
    simp
  have hitems : items (" %H:".toList ++ format) = _ := items_format hps format
  apply read?_isoDate_append_eq_none ht horder
  intro g
  rw [hitems]
  show Fields.readItems?
    (.literal ' ' :: .field Numeric.hour.field :: .literal ':' :: items format) g _ = none
  rw [Fields.readItems?_blank (by decide), Numeric.trimStart_digits hdigits hne]
  apply readItems?_digits_eq_none (v := .hour) hdigits hne hlen.le (Or.inl hlen)
  intro g'
  apply Fields.readItems?_literal_ne (by decide)
  cases clock <;> simp [Clock.parts, Part.written]

theorem read?_international_eq_none (ht : t.HasFourDigitYear)
    (h : sep ≠ '-' ∨ order ≠ .yearMonthDay) (clock : Clock) :
    Fields.read? isoDate (shortText order sep clock t) = none ∧
      ∀ format, Fields.read? (isoDate ++ (" %H:".toList ++ format)) (shortText order sep clock t)
        = none := by
  by_cases hdash : sep = '-'
  · subst hdash
    have horder : order ≠ .yearMonthDay := h.resolve_left (by simp)
    exact ⟨read?_isoDate_eq_none ht horder, read?_isoClock_eq_none ht horder⟩
  · have hnone : ∀ format,
        Fields.read? (isoDate ++ format) (shortText order sep clock t) = none := by
      rw [isoDate_eq]
      exact read?_eq_none_of_separator (by decide) hdash t
    have hdate := hnone []
    rw [List.append_nil] at hdate
    exact ⟨hdate, fun format => hnone _⟩

/-! ## the forms in their order -/

/-- The first result of a list, where only one of its members has a result. -/
theorem firstOf?_eq_some {α β : Type} {read : α → Option β} {l : List α} {a : α} {v : β}
    (ha : a ∈ l) (hv : read a = some v) (hnone : ∀ b ∈ l, a ≠ b → read b = none) :
    firstOf? read l = some v := by
  induction l with
  | nil => cases ha
  | cons b l ih =>
    show (read b).or (firstOf? read l) = some v
    by_cases hb : a = b
    · rw [← hb, hv, Option.some_or]
    · rw [hnone b List.mem_cons_self hb, Option.none_or]
      exact ih ((List.mem_cons.mp ha).resolve_left hb)
        (fun b' hb' => hnone b' (List.mem_cons_of_mem b hb'))

/-- The formats with more of a time of day are tried before, and do not fit. -/
theorem clocks_shortText (ht : t.HasFourDigitYear)
    (hsep : sep ∈ ['/', '-', '.']) (hformat : IsOptional format) (order : DateOrder)
    (clock : Clock) :
    (readLocal? (shortDate order sep ++ withSeconds ++ format) (shortText order sep clock t)).or
        ((readLocal? (shortDate order sep ++ withMinutes) (shortText order sep clock t)).or
          (readDate? (shortDate order sep) (shortText order sep clock t)))
      = some ⟨t.date, t.time.only (numerics clock.parts)⟩ := by
  have hnone : ∀ clock' : Clock,
      clock.parts.count (.literal ':') < clock'.parts.count (.literal ':') →
      ∀ format, readLocal? (shortDate order sep ++ clock'.parts.flatMap Part.format ++ format)
        (shortText order sep clock t) = none := by
    intro clock' hlt format
    unfold readLocal?
    rw [read?_eq_none_of_clock hsep hsep hlt]
    rfl
  rw [withSeconds_eq, withMinutes_eq,
    ← List.append_nil (shortDate order sep ++ Clock.minutes.parts.flatMap Part.format)]
  cases clock with
  | nothing =>
    rw [hnone .seconds (by decide), hnone .minutes (by decide), readDate?_shortText ht hsep,
      Option.none_or, Option.none_or]
    rfl
  | minutes =>
    rw [hnone .seconds (by decide), readLocal?_shortText ht hsep isOptional_nil (by decide),
      Option.none_or, Option.some_or]
  | seconds => rw [readLocal?_shortText ht hsep hformat (by decide), Option.some_or]

theorem readShort?_shortText (ht : t.HasFourDigitYear) (hsep : sep ∈ ['/', '-', '.']) :
    readShort? order (shortText order sep clock t) sep
      = some ⟨t.date, t.time.only (numerics clock.parts)⟩ := by
  have hread := clocks_shortText ht hsep isOptional_nil order clock
  rwa [List.append_nil] at hread

theorem readShort?_eq_none (hsep' : sep' ∈ ['/', '-', '.']) (hne : sep ≠ sep') :
    readShort? order (shortText order sep clock t) sep' = none := by
  have hnone : ∀ format,
      Fields.read? (shortDate order sep' ++ format) (shortText order sep clock t) = none :=
    read?_eq_none_of_separator hsep' hne t
  have hdate := hnone []
  rw [List.append_nil] at hdate
  unfold readShort? readLocal? readDate?
  dsimp only
  rw [hnone, hnone, hdate]
  rfl

/-- The forms with a T do not fit, so the international forms are tried like a short date. -/
theorem firstOf?_isoFormats_or (hsep : sep ∈ ['/', '-', '.']) (o : Option DateTime) :
    (firstOf? (readLocal? · (shortText order sep clock t)) isoFormats).or
        ((readDate? isoDate (shortText order sep clock t)).or o)
      = ((readLocal? (isoDate ++ withSeconds ++ "%.f".toList) (shortText order sep clock t)).or
          ((readLocal? (isoDate ++ withMinutes) (shortText order sep clock t)).or
            (readDate? isoDate (shortText order sep clock t)))).or o := by
  have hletter : ∀ format,
      readLocal? (isoDate ++ 'T' :: format) (shortText order sep clock t) = none := by
    intro format
    unfold readLocal?
    rw [read?_eq_none_of_letter hsep]
    rfl
  have hseconds : readLocal? isoSeconds (shortText order sep clock t) = none :=
    hletter "%H:%M:%S%.f".toList
  have hminutes : readLocal? "%Y-%m-%dT%H:%M".toList (shortText order sep clock t) = none :=
    hletter "%H:%M".toList
  simp only [isoFormats, firstOf?, hseconds, hminutes, Option.none_or, Option.or_none,
    Option.or_assoc]
  rfl

theorem readDefault?_shortText (k : Culture) (ht : t.HasFourDigitYear)
    (hsep : sep ∈ ['/', '-', '.']) :
    readDefault? k (shortText k.dateOrder sep clock t)
      = some ⟨t.date, t.time.only (numerics clock.parts)⟩ := by
  unfold readDefault?
  rw [readTimestamp?_shortText ht, Option.none_or, firstOf?_isoFormats_or hsep]
  -- only then a form before the short dates takes the text
  by_cases h : sep = '-' ∧ k.dateOrder = .yearMonthDay
  · obtain ⟨rfl, horder⟩ := h
    rw [horder, isoDate_eq, clocks_shortText ht hsep isOptional_fraction, Option.some_or]
  · obtain ⟨hdate, hclock⟩ := read?_international_eq_none ht (not_and_or.mp h) clock
    have hseconds : Fields.read? (isoDate ++ withSeconds ++ "%.f".toList)
        (shortText k.dateOrder sep clock t) = none := hclock "%M:%S%.f".toList
    have hminutes : Fields.read? (isoDate ++ withMinutes) (shortText k.dateOrder sep clock t)
        = none := hclock "%M".toList
    unfold readLocal? readDate?
    rw [hseconds, hminutes, hdate]
    exact firstOf?_eq_some hsep (readShort?_shortText ht hsep)
      (fun sep' hsep' hne => readShort?_eq_none hsep' hne)

/-- A date and a time of day that are written in the order of a culture are read back without a
hint: the date, and the numbers of the time that are written. -/
theorem parse?_shortText (k : Culture) (hsep : sep ∈ ['/', '-', '.']) (clock : Clock)
    (ht : 0 ≤ t.date.year ∧ t.date.year ≤ 9999)
    (hbefore : ∀ b ∈ before, Text.isBlank b = true)
    (hafter : ∀ b ∈ after, Text.isBlank b = true) :
    parse? k none (before ++ shortText k.dateOrder sep clock t ++ after)
      = some ⟨t.date, t.time.only (numerics clock.parts)⟩ := by
  obtain ⟨u, hu⟩ : ∃ u, (shortParts k.dateOrder sep clock).head? = some (.field u) := by
    cases k.dateOrder <;> exact ⟨_, rfl⟩
  obtain ⟨v, hv⟩ : ∃ v, (shortParts k.dateOrder sep clock).getLast? = some (.field v) := by
    cases k.dateOrder <;> cases clock <;> exact ⟨_, rfl⟩
  have hne : shortText k.dateOrder sep clock t ≠ [] :=
    (Spells.written t _).ne_nil ht (List.mem_of_mem_head? hu)
  unfold parse?
  rw [Text.trim_surround hbefore hafter, shortText, trim_written ht hu hv, ← shortText]
  dsimp only
  rw [if_neg (by simpa using hne)]
  exact readDefault?_shortText k ht hsep

/-- Here the year could be the fifth, and the day the ninth of March. -/
theorem parse?_shortText_day_first :
    '-' ∈ ['/', '-', '.'] ∧ (0 ≤ (912 : Int) ∧ (912 : Int) ≤ 9999) ∧
      parse? .enGB none "\t05-03-0912 19:05 ".toList
        = some ⟨⟨912, 3, 5, by decide⟩, ⟨19, 5, 0, 0, by decide⟩⟩ := by
  have hbefore : ∀ b ∈ ['\t'], Text.isBlank b = true := by
    rw [List.forall_mem_singleton]
    decide
  have hafter : ∀ b ∈ [' '], Text.isBlank b = true := by
    rw [List.forall_mem_singleton]
    decide
  have hread := parse?_shortText (t := ⟨⟨912, 3, 5, by decide⟩, ⟨19, 5, 42, 0, by decide⟩⟩) .enGB
    (show '-' ∈ ['/', '-', '.'] by decide) .minutes (by decide) hbefore hafter
  exact ⟨by decide, by decide, hread⟩

end FormatInverse.Calendar
