import FormatInverse.Calendar.Parse
import FormatInverse.Proofs.Calendar.Day
import FormatInverse.Proofs.Calendar.Part

/-!
# Timestamps in Greenwich time

A timestamp is a date and a time of day with an offset behind them (`timestampText`).  It is read as
exactly its numbers, its fraction of a second and its offset (`readTimestamp?_timestampText`), so
its value is the date-time that is written less the offset (`parse?_timestampText`), whatever days,
months and years lie between the two.
-/

namespace FormatInverse.Calendar

variable {f : Fields} {t v : DateTime} {u : Numeric} {us : List Numeric} {n : Nat}
  {fraction rest : Text} {zone : Zone}

/-! ## the text -/

/-- an offset as it is written: a Z, or hours and minutes to the east or west of Greenwich -/
inductive Zone where
  | zulu
  | east (minutes : Fin 1440)
  | west (minutes : Fin 1440)
  deriving DecidableEq, Repr

namespace Zone

/-- the minutes east of Greenwich -/
def minutes : Zone → Int
  | zulu => 0
  | east n => n.val
  | west n => -n.val

/-- hours and minutes with a colon between them -/
def clock (n : Nat) : Text := Text.padded 2 (n / 60) ++ ':' :: Text.padded 2 (n % 60)

def written : Zone → Text
  | zulu => ['Z']
  | east n => '+' :: clock n
  | west n => '-' :: clock n

end Zone

/-- date and time of day of a timestamp -/
def timestampParts : List Part :=
  [.field .year, .literal '-', .field .month, .literal '-', .field .day, .literal 'T',
   .field .hour, .literal ':', .field .minute, .literal ':', .field .second]

/-- the digits of a fraction behind a point, if there are any -/
def pointed (fraction : Text) : Text := if fraction = [] then [] else '.' :: fraction

def timestampText (t : DateTime) (fraction : Text) (zone : Zone) : Text :=
  timestampParts.flatMap (Part.written t) ++ (pointed fraction ++ zone.written)

/-- Up to nine digits for a part of a second. -/
structure IsFraction (fraction : Text) (nanosecond : Nat) : Prop where
  isDigit : ∀ c ∈ fraction, c.isDigit = true
  length_le : fraction.length ≤ 9
  value : nanosecond = Text.value fraction * 10 ^ (9 - fraction.length)

/-! ## date and time of day -/

theorem scanNumber?_padded {width : Nat} (hwidth : 0 < width) (hn : n < 10 ^ width)
    (rest : Text) :
    scanNumber? width width (Text.padded width n ++ rest) = some (n, rest) := by
  have hlen := Text.length_padded hwidth hn
  rw [scanNumber?_digits (fun c hc => Text.isDigit_of_mem_padded hc) hlen.ge hlen.le (Or.inl hlen),
    Text.value_padded]

theorem scanNumber?_written (ht : t.HasFourDigitYear) (u : Numeric) (rest : Text) :
    scanNumber? u.width u.width (u.written t ++ rest) = some (u.value t, rest) :=
  scanNumber?_padded u.width_pos (u.value_lt ht) rest

theorem scanChar?_cons (c : Char) (rest : Text) : scanChar? c (c :: rest) = some rest :=
  if_pos rfl

theorem scanTimestampDate?_written (ht : t.HasFourDigitYear) (rest : Text) :
    scanTimestampDate? .empty (Numeric.year.written t ++ '-' :: (Numeric.month.written t ++ '-' ::
        (Numeric.day.written t ++ rest)))
      = some (.holding t [.year, .month, .day], rest) := by
  have hyear := Fields.put?_holding ht.1 [] .year
  have hmonth := Fields.put?_holding ht.1 [.year] .month
  have hday := Fields.put?_holding ht.1 [.year, .month] .day
  rw [Fields.holding_nil] at hyear
  simp only [Numeric.put?, List.nil_append, List.cons_append] at hyear hmonth hday
  have hscan := fun u rest => scanNumber?_written ht u rest
  unfold scanTimestampDate?
  rw [show scanNumber? 4 4 _ = _ from hscan .year _]
  simp only [Option.bind_eq_bind, Option.bind_some, scanChar?_cons]
  rw [show scanNumber? 2 2 _ = _ from hscan .month _]
  simp only [Option.bind_some, scanChar?_cons]
  rw [show scanNumber? 2 2 _ = _ from hscan .day _]
  simp only [Option.bind_some, hyear, hmonth, hday]
  rfl

theorem scanTimestampTime?_written (ht : t.HasFourDigitYear) (rest : Text) :
    scanTimestampTime? (.holding t [.year, .month, .day])
        (Numeric.hour.written t ++ ':' :: (Numeric.minute.written t ++ ':' ::
          (Numeric.second.written t ++ rest)))
      = some (.holding t [.year, .month, .day, .hour, .minute, .second], rest) := by
  have hhour := Fields.put?_holding ht.1 [.year, .month, .day] .hour
  have hminute := Fields.put?_holding ht.1 [.year, .month, .day, .hour] .minute
  have hsecond := Fields.put?_holding ht.1 [.year, .month, .day, .hour, .minute] .second
  simp only [Numeric.put?, List.nil_append, List.cons_append] at hhour hminute hsecond
  have hscan := fun u rest => scanNumber?_written ht u rest
  unfold scanTimestampTime?
  rw [show scanNumber? 2 2 _ = _ from hscan .hour _]
  simp only [Option.bind_eq_bind, Option.bind_some, scanChar?_cons]
  rw [show scanNumber? 2 2 _ = _ from hscan .minute _]
  simp only [Option.bind_some, scanChar?_cons]
  rw [show scanNumber? 2 2 _ = _ from hscan .second _]
  simp only [Option.bind_some, hhour, hminute, hsecond]
  rfl

/-! ## fraction and offset -/

/-- A fraction is read as nanoseconds, and no fraction as nothing. -/
theorem scanTimestampFraction?_pointed (hfraction : IsFraction fraction n)
    (hn : n < 1000000000) (hf : f.nanosecond = none)
    (hrest : ∀ c ∈ rest.head?, c.isDigit = false ∧ c ≠ '.') :
    scanTimestampFraction? f (pointed fraction ++ rest)
      = some ({ f with nanosecond := if fraction = [] then none else some n }, rest) := by
  unfold pointed
  split_ifs with h
  · rw [List.nil_append, ← hf]
    unfold scanTimestampFraction?
    split
    · next r =>
      exact absurd rfl (hrest '.' rfl).2
    · rfl
  · have hscan := scanFraction?_digits hfraction.isDigit h hfraction.length_le
      (fun c hc => (hrest c hc).1)
    have hvalue : Text.value fraction * Nat.pow 10 (9 - fraction.length) = n :=
      hfraction.value.symm
    have hrange : n ≤ 999999999 := by omega
    show ((scanFraction? (fraction ++ rest)).bind fun p =>
      (f.withNanosecond? p.1).bind fun g => some (g, p.2)) = _
    rw [hscan, hvalue]
    simp [Fields.withNanosecond?, Fields.agreeIn?, Fields.agree?, hf, hrange]

theorem scanOffset?_clock {c : Char} {sign : Int} (hn : n < 1440)
    (hsign : scanSign? true (c :: Zone.clock n) = some (sign, Zone.clock n)) :
    scanOffset? true false (scanChar? ':') (c :: Zone.clock n) = some (sign * n, []) := by
  have hhours : scanNumber? 2 2 (Zone.clock n) = some (n / 60, ':' :: Text.padded 2 (n % 60)) :=
    scanNumber?_padded Nat.two_pos (by omega) _
  have hminutes : scanMinutes? (Text.padded 2 (n % 60)) = some (n % 60, []) := by
    have hscan := scanNumber?_padded (n := n % 60) Nat.two_pos (by omega) []
    rw [List.append_nil] at hscan
    unfold scanMinutes?
    rw [hscan, Option.filter_some, if_pos (by simpa using Nat.mod_lt n (by decide))]
  have hsum : (60 * (n / 60 : Nat) + (n % 60 : Nat) : Int) = n := by omega
  unfold scanOffset?
  simp only [Option.bind_eq_bind, hsign, Option.bind_some, hhours, scanChar?_cons, hminutes,
    Bool.false_eq_true, false_and, if_false, hsum]
  rfl

theorem scanTimestampOffset?_written (hf : f.offset = none) (zone : Zone) :
    scanTimestampOffset? f zone.written = some ({ f with offset := some zone.minutes }, []) := by
  have hput : ∀ n, f.withOffset? n = some { f with offset := some n } := by
    intro n
    simp [Fields.withOffset?, Fields.agree?, hf]
  unfold scanTimestampOffset?
  cases zone with
  | zulu =>
    show ((f.withOffset? 0).bind fun g => some (g, [])) = _
    rw [hput]
    rfl
  | east n =>
    show ((scanOffset? true false (scanChar? ':') ('+' :: Zone.clock n)).bind fun p =>
      (f.withOffset? p.1).bind fun g => some (g, p.2)) = _
    rw [scanOffset?_clock n.isLt rfl, Option.bind_some, hput, one_mul]
    rfl
  | west n =>
    show ((scanOffset? true false (scanChar? ':') ('-' :: Zone.clock n)).bind fun p =>
      (f.withOffset? p.1).bind fun g => some (g, p.2)) = _
    rw [scanOffset?_clock n.isLt rfl, Option.bind_some, hput, neg_one_mul]
    rfl

/-! ## reading -/

theorem Zone.minutes_bounds (zone : Zone) : -1440 < zone.minutes ∧ zone.minutes < 1440 := by
  cases zone with
  | zulu => decide
  | east n =>
    have := n.isLt
    simp only [minutes]
    omega
  | west n =>
    have := n.isLt
    simp only [minutes]
    omega

theorem Zone.written_head? (zone : Zone) :
    ∀ c ∈ zone.written.head?, c.isDigit = false ∧ c ≠ '.' := by
  cases zone <;> simp [written]

theorem Zone.written_ne_nil (zone : Zone) : zone.written ≠ [] := by
  cases zone <;> simp [written]

/-- What ends in digits does not end in white space. -/
theorem isBlank_of_mem_getLast?_padded {c : Char} (hn : n < 100) (s : Text)
    (hc : c ∈ (s ++ Text.padded 2 n).getLast?) : Text.isBlank c = false := by
  have hlen : (Text.padded 2 n).length = 2 := Text.length_padded Nat.two_pos hn
  have hne : Text.padded 2 n ≠ [] := List.ne_nil_of_length_pos (by omega)
  rw [List.getLast?_append_of_ne_nil _ hne] at hc
  exact Text.isBlank_of_isDigit (Text.isDigit_of_mem_padded (List.mem_of_getLast? hc))

theorem Zone.written_getLast? (zone : Zone) :
    ∀ c ∈ zone.written.getLast?, Text.isBlank c = false := by
  have hclock : ∀ (sign : Char) (n : Nat), sign :: clock n
      = (sign :: (Text.padded 2 (n / 60) ++ [':'])) ++ Text.padded 2 (n % 60) := by
    intro sign n
    simp [clock]
  intro c hc
  cases zone with
  | zulu =>
    cases hc
    decide
  | east n =>
    rw [written, hclock] at hc
    exact isBlank_of_mem_getLast?_padded (by omega) _ hc
  | west n =>
    rw [written, hclock] at hc
    exact isBlank_of_mem_getLast?_padded (by omega) _ hc

theorem timestampText_eq (t : DateTime) (fraction : Text) (zone : Zone) :
    timestampText t fraction zone
      = Numeric.year.written t ++ '-' :: (Numeric.month.written t ++ '-' ::
          (Numeric.day.written t ++ 'T' :: (Numeric.hour.written t ++ ':' ::
            (Numeric.minute.written t ++ ':' :: (Numeric.second.written t ++
              (pointed fraction ++ zone.written)))))) := by
  simp [timestampText, timestampParts, Part.written]

/-- All numbers of a date-time are there. -/
theorem local?_timestamp {nanosecond : Option Nat} (hn : t.time.nanosecond = nanosecond.getD 0)
    (offset : Option Int) :
    Fields.local? { Fields.holding t [.year, .month, .day, .hour, .minute, .second] with
      nanosecond := nanosecond, offset := offset } = some t := by
  have hdate : Date.of? t.date.year t.date.month t.date.day = some t.date := dif_pos t.date.valid
  obtain ⟨hhour, hminute, hsecond, hnanosecond⟩ := t.time.valid
  have hsum : 12 * (t.time.hour / 12) + t.time.hour % 12 = t.time.hour := Nat.div_add_mod _ _
  have hne : t.time.second ≠ 60 := by omega
  have hclock : Fields.clock? t.time.hour t.time.minute t.time.second (nanosecond.getD 0)
      = some t.time := by
    rw [← hn]
    simp [Fields.clock?, hne, hhour, hminute, hsecond, hnanosecond]
  simp [Fields.local?, Fields.date?, Fields.year?, Fields.time?, Fields.holding, hdate, hsum,
    hclock]

theorem IsFraction.lt (h : IsFraction fraction n) : n < 1000000000 :=
  calc n = Text.value fraction * 10 ^ (9 - fraction.length) := h.value
    _ < 10 ^ fraction.length * 10 ^ (9 - fraction.length) :=
      Nat.mul_lt_mul_of_pos_right (Text.value_lt h.isDigit) (Nat.pow_pos (by decide))
    _ = 10 ^ 9 := by rw [← Nat.pow_add, Nat.add_sub_cancel' h.length_le]
    _ = 1000000000 := rfl

/-- Without digits there is no part of a second. -/
theorem IsFraction.eq_getD (h : IsFraction fraction n) :
    n = (if fraction = [] then none else some n).getD 0 := by
  split_ifs with hnil
  · have hvalue := h.value
    rw [hnil] at hvalue
    exact hvalue.trans (Nat.zero_mul _)
  · rfl

/-- A timestamp is read as the date-time that is written, and the offset is taken off it. -/
theorem readTimestamp?_timestampText (ht : t.HasFourDigitYear)
    (hfraction : IsFraction fraction t.time.nanosecond) (zone : Zone) :
    readTimestamp? (timestampText t fraction zone) = t.minus? zone.minutes := by
  have hzone := scanTimestampFraction?_pointed hfraction hfraction.lt
    (f := .holding t [.year, .month, .day, .hour, .minute, .second]) rfl zone.written_head?
  have hlocal := local?_timestamp hfraction.eq_getD (some zone.minutes)
  unfold readTimestamp?
  rw [timestampText_eq]
  simp only [Option.bind_eq_bind, scanTimestampDate?_written ht, Option.bind_some, scanDateEnd?,
    true_or, if_true, scanTimestampTime?_written ht, hzone]
  rw [scanTimestampOffset?_written rfl]
  simp only [Option.bind_some, List.isEmpty_nil, if_true, Fields.universal?, Option.bind_eq_bind,
    hlocal, if_pos zone.minutes_bounds]

/-- A timestamp has no white space at its ends. -/
theorem trim_timestampText (ht : t.HasFourDigitYear) (fraction : Text) (zone : Zone) :
    Text.trim (timestampText t fraction zone) = timestampText t fraction zone := by
  have hstart : Text.trimStart (timestampText t fraction zone) = timestampText t fraction zone := by
    rw [timestampText_eq]
    exact Numeric.trimStart_digits (fun c hc => Numeric.isDigit_of_mem_written hc)
      (Numeric.written_ne_nil ht .year) _
  have hend : Text.trimEnd zone.written = zone.written :=
    Text.trimEnd_of_getLast? zone.written_getLast?
  rw [Text.trim_eq, hstart, timestampText, ← List.append_assoc, Text.trimEnd_append, hend,
    if_neg zone.written_ne_nil]

/-- A timestamp is read, without a hint and by the hint for it, as the date-time that lies as much
before the one that is written as its offset says. -/
theorem parse?_timestampText (k : Culture) {hint : Option Text}
    (hhint : hint ∈ [none, some ['o'], some ['O']])
    (ht : 0 ≤ t.date.year ∧ t.date.year ≤ 9999)
    (hfraction : IsFraction fraction t.time.nanosecond) (zone : Zone) :
    ∃ v, parse? k hint (timestampText t fraction zone) = some v ∧ v.Precedes t zone.minutes := by
  have hyear : minYear < t.date.year ∧ t.date.year < maxYear := by
    unfold minYear maxYear
    omega
  obtain ⟨-, v, hv⟩ := DateTime.admits_of_year hyear zone.minutes_bounds
  have hread : readTimestamp? (timestampText t fraction zone) = some v := by
    rw [readTimestamp?_timestampText ht hfraction]
    exact (DateTime.minus?_eq_some_iff zone.minutes_bounds).mpr hv
  have htrim := trim_timestampText ht fraction zone
  have hne : Text.trim (timestampText t fraction zone) ≠ [] := by
    rw [htrim, timestampText_eq]
    simp
  refine ⟨v, ?_, hv⟩
  simp only [List.mem_cons, List.not_mem_nil, or_false] at hhint
  rcases hhint with rfl | rfl | rfl
  · rw [parse?_default k hne, htrim, readDefault?, hread, Option.some_or]
  · rw [parse?_hinted k ['o'] hne, htrim]
    show (readTimestamp? _).or _ = _
    rw [hread, Option.some_or]
  · rw [parse?_hinted k ['O'] hne, htrim]
    show (readTimestamp? _).or _ = _
    rw [hread, Option.some_or]

/-- Six hours to the east of a morning in March it is still the leap day of a century year. -/
theorem parse?_timestampText_leap_day :
    some ['O'] ∈ [none, some ['o'], some ['O']] ∧ (0 ≤ (2000 : Int) ∧ (2000 : Int) ≤ 9999) ∧
      IsFraction "5609079".toList 560907900 ∧
      parse? .invariant (some ['O']) "2000-03-01T00:15:59.5609079+05:45".toList
        = some ⟨⟨2000, 2, 29, by decide⟩, ⟨18, 30, 59, 560907900, by decide⟩⟩ := by
  have hhint : some ['O'] ∈ [none, some ['o'], some ['O']] := by decide
  have hfraction : IsFraction "5609079".toList 560907900 := ⟨by simp, by decide, by decide⟩
  obtain ⟨v, hparse, hprecedes⟩ := parse?_timestampText
    (t := ⟨⟨2000, 3, 1, by decide⟩, ⟨0, 15, 59, 560907900, by decide⟩⟩) .invariant
    hhint (by decide) hfraction (.east 345)
  have hv := (DateTime.minus?_eq_some_iff (Zone.minutes_bounds (.east 345))).mpr hprecedes
  exact ⟨hhint, by decide, hfraction, hparse.trans hv.symm⟩

end FormatInverse.Calendar
