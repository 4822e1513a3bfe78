import FormatInverse.Proofs.Calendar.Greenwich
import FormatInverse.Proofs.Calendar.Known
import FormatInverse.Proofs.Calendar.ShortDate

/-!
# Hints of one letter

A hint of one letter names a form that is tried without a hint as well, so a text that is read by it
is read the same way without one (`parse?_standard`).  No form that comes earlier takes the text,
because all of these forms are written in numbers, so a text that two of them read has the same
marks in both:

* short dates with a slash have two slashes, the international forms none
  (`count_slash_of_international`);
* date and time of day have as many colons as the form (`count_of_read?_shortDate`), a timestamp has
  more of them, or a Z.
-/

namespace FormatInverse.Calendar

variable {c sep : Char} {order : DateOrder} {clock clock' : Clock} {f : Fields} {t format : Text}
  {ps : List Part} {v : DateTime} {k : Culture} {raw : Text}

/-! ## the marks of a form -/

theorem isMark_slash : IsMark '/' := ⟨by decide, by decide, by decide, by decide⟩

theorem isMark_colon : IsMark ':' := ⟨by decide, by decide, by decide, by decide⟩

theorem isMark_zulu : IsMark 'Z' ∧ IsMark 'z' :=
  ⟨⟨by decide, by decide, by decide, by decide⟩, ⟨by decide, by decide, by decide, by decide⟩⟩

theorem items_parts (hps : ∀ c, .literal c ∈ ps → c ≠ '%') :
    items (ps.flatMap Part.format) = ps.map Part.item := by
  have hitems := items_format hps []
  rwa [List.append_nil, items_nil, List.append_nil] at hitems

theorem isNumeric_item (p : Part) : p.item.isNumeric = true := by
  cases p with
  | field u => cases u <;> rfl
  | literal c => rfl

/-- A text that is read by parts has the marks of the parts. -/
theorem count_of_read?_parts (hps : ∀ c, .literal c ∈ ps → c ≠ '%') (hc : IsMark c)
    (h : Fields.read? (ps.flatMap Part.format) t = some f) : t.count c = ps.count (.literal c) := by
  unfold Fields.read? at h
  rw [items_parts hps] at h
  have hnumeric : (ps.map Part.item).all Item.isNumeric = true := by
    rw [List.all_map, List.all_eq_true]
    intro p hp
    exact isNumeric_item p
  rw [Fields.count_eq_of_readItems? hnumeric hc h, count_item]

theorem count_of_read?_shortDate (hsep : sep ∈ ['/', '-', '.']) (hc : IsMark c)
    (h : Fields.read? (shortDate order sep ++ clock.parts.flatMap Part.format) t = some f) :
    t.count c = (shortParts order sep clock).count (.literal c) := by
  rw [shortDate_eq, ← List.flatMap_append] at h
  exact count_of_read?_parts (fun c hc => ne_percent_of_mem_shortParts hsep hc) hc h

theorem count_slash_of_international (hformat : format ∈ isoDate :: isoFormats)
    (h : Fields.read? format t = some f) : t.count '/' = 0 := by
  have hitems : ∀ format ∈ isoDate :: isoFormats, (items format).all Item.isNumeric = true ∧
      (items format).count (.literal '/') = 0 := by
    decide +kernel
  obtain ⟨hnumeric, hcount⟩ := hitems format hformat
  rw [Fields.count_eq_of_readItems? hnumeric isMark_slash h, hcount]

theorem readTimestamp?_eq_none (hcolon : t.count ':' ≤ 2) (hupper : t.count 'Z' = 0)
    (hlower : t.count 'z' = 0) : readTimestamp? t = none := by
  apply Option.eq_none_iff_forall_ne_some.mpr
  intro v hv
  rcases marks_of_readTimestamp? hv with h | h | h
  · omega
  · exact List.count_eq_zero.mp hupper h
  · exact List.count_eq_zero.mp hlower h

theorem firstOf?_eq_none {α β : Type} {read : α → Option β} {l : List α}
    (h : ∀ a ∈ l, read a = none) : firstOf? read l = none := by
  induction l with
  | nil => rfl
  | cons a l ih =>
    rw [firstOf?, h a List.mem_cons_self, Option.none_or]
    exact ih fun b hb => h b (List.mem_cons_of_mem a hb)

/-! ## short dates with a slash -/

/-- the form of a short date with slashes -/
def slashed (order : DateOrder) (clock : Clock) : Text :=
  shortDate order '/' ++ clock.parts.flatMap Part.format

theorem slashed_nothing (order : DateOrder) : slashed order .nothing = shortDate order '/' :=
  List.append_nil _

theorem items_slashed (order : DateOrder) (clock : Clock) :
    items (slashed order clock) = (shortParts order '/' clock).map Part.item := by
  rw [slashed, shortDate_eq, ← List.flatMap_append]
  exact items_parts fun c hc => ne_percent_of_mem_shortParts (by decide) hc

theorem count_of_read?_slashed (hc : IsMark c) (h : Fields.read? (slashed order clock) t = some f) :
    t.count c = (shortParts order '/' clock).count (.literal c) :=
  count_of_read?_shortDate (by decide) hc h

/-- A text that is read by one of these forms is no timestamp, and not in an international form. -/
theorem readTimestamp?_of_slashed (h : Fields.read? (slashed order clock) t = some f) :
    readTimestamp? t = none := by
  apply readTimestamp?_eq_none
  · rw [count_of_read?_slashed isMark_colon h]
    cases order <;> cases clock <;> decide
  · rw [count_of_read?_slashed isMark_zulu.1 h]
    cases order <;> cases clock <;> decide
  · rw [count_of_read?_slashed isMark_zulu.2 h]
    cases order <;> cases clock <;> decide

theorem read?_international_of_slashed (h : Fields.read? (slashed order clock) t = some f)
    (hformat : format ∈ isoDate :: isoFormats) : Fields.read? format t = none := by
  apply Option.eq_none_iff_forall_ne_some.mpr
  intro g hg
  have hnone := count_slash_of_international hformat hg
  rw [count_of_read?_slashed isMark_slash h, count_shortParts (by decide) (by decide)] at hnone
  exact absurd hnone (by decide)

/-- The forms with more or less of a time of day do not fit. -/
theorem read?_slashed_of_ne (h : Fields.read? (slashed order clock) t = some f)
    (hne : clock ≠ clock') : Fields.read? (slashed order clock') t = none := by
  apply Option.eq_none_iff_forall_ne_some.mpr
  intro g hg
  have heq := (count_of_read?_slashed isMark_colon h).symm.trans
    (count_of_read?_slashed isMark_colon hg)
  revert heq hne
  cases order <;> cases clock <;> cases clock' <;> decide

/-- What is read as a short date with slashes is read so without a hint. -/
theorem readDefault?_of_slashed (h : Fields.read? (slashed k.dateOrder clock) t = some f)
    (hv : readShort? k.dateOrder t '/' = some v) : readDefault? k t = some v := by
  have hnone : ∀ format ∈ isoDate :: isoFormats, Fields.read? format t = none := fun format =>
    read?_international_of_slashed h
  have hdate : readDate? isoDate t = none := by
    rw [readDate?, hnone isoDate List.mem_cons_self, Option.bind_none]
  have hiso : firstOf? (readLocal? · t) isoFormats = none := by
    apply firstOf?_eq_none
    intro format hformat
    rw [readLocal?, hnone format (List.mem_cons_of_mem _ hformat), Option.bind_none]
  unfold readDefault?
  rw [readTimestamp?_of_slashed h, hiso, hdate, Option.none_or, Option.none_or, Option.none_or]
  show (readShort? k.dateOrder t '/').or _ = _
  rw [hv, Option.some_or]

theorem readShort?_slash (order : DateOrder) (t : Text) :
    readShort? order t '/' = (readLocal? (slashed order .seconds) t).or
      ((readLocal? (slashed order .minutes) t).or (readDate? (slashed order .nothing) t)) := by
  rw [slashed_nothing]
  rfl

/-- A date and a time of day without offset: neither of the two is left out. -/
theorem readBy?_slashed (hclock : clock ≠ .nothing) :
    readBy? (slashed order clock) t = readLocal? (slashed order clock) t := by
  have hentries : Fields.SettlesTime (entriesOf (items (slashed order clock))) ∧
      .offset ∉ entriesOf (items (slashed order clock)) := by
    rw [items_slashed]
    cases clock with
    | nothing => exact absurd rfl hclock
    | minutes => cases order <;> exact ⟨⟨by decide, by decide, by decide, by decide⟩, by decide⟩
    | seconds => cases order <;> exact ⟨⟨by decide, by decide, by decide, by decide⟩, by decide⟩
  exact readBy?_eq_readLocal? hentries.1 hentries.2 t

theorem readDefault?_of_local (hclock : clock ≠ .nothing)
    (h : readLocal? (slashed k.dateOrder clock) t = some v) : readDefault? k t = some v := by
  obtain ⟨f, hf, -⟩ := Option.bind_eq_some_iff.mp h
  apply readDefault?_of_slashed hf
  rw [readShort?_slash]
  cases clock with
  | nothing => exact absurd rfl hclock
  | minutes =>
    have hseconds : readLocal? (slashed k.dateOrder .seconds) t = none := by
      rw [readLocal?, read?_slashed_of_ne hf (by decide), Option.bind_none]
    rw [hseconds, h, Option.none_or, Option.some_or]
  | seconds => rw [h, Option.some_or]

theorem readDefault?_of_date (h : readDate? (shortDate k.dateOrder '/') t = some v) :
    readDefault? k t = some v := by
  rw [← slashed_nothing] at h
  obtain ⟨f, hf, -⟩ := Option.bind_eq_some_iff.mp h
  apply readDefault?_of_slashed hf
  rw [readShort?_slash, readLocal?, readLocal?, read?_slashed_of_ne hf (by decide),
    read?_slashed_of_ne hf (by decide), h, Option.bind_none, Option.none_or, Option.none_or]

/-! ## the sortable form -/

/-- date and time of day of a timestamp, without its fraction and its offset -/
def sortable : Text := timestampParts.flatMap Part.format

theorem ne_percent_of_mem_timestampParts (hc : .literal c ∈ timestampParts) : c ≠ '%' := by
  rintro rfl
  revert hc
  decide

/-- The international form goes on with a fraction, which may be left out. -/
theorem read?_isoSeconds_of_sortable (h : Fields.read? sortable t = some f) :
    Fields.read? isoSeconds t = some f := by
  have hiso : isoSeconds = timestampParts.flatMap Part.format ++ "%.f".toList := rfl
  unfold Fields.read? at h ⊢
  rw [sortable, items_parts fun c => ne_percent_of_mem_timestampParts] at h
  rw [hiso, items_format fun c => ne_percent_of_mem_timestampParts]
  exact Fields.readItems?_append h isOptional_fraction

theorem readDefault?_of_sortable (h : readLocal? sortable t = some v) :
    readDefault? k t = some v := by
  obtain ⟨f, hf, hv⟩ := Option.bind_eq_some_iff.mp h
  have hcount : ∀ c, IsMark c → t.count c = timestampParts.count (.literal c) := fun c hc =>
    count_of_read?_parts (fun _ => ne_percent_of_mem_timestampParts) hc hf
  have htimestamp : readTimestamp? t = none := by
    apply readTimestamp?_eq_none
    · rw [hcount ':' isMark_colon]
      decide
    · rw [hcount 'Z' isMark_zulu.1]
      decide
    · rw [hcount 'z' isMark_zulu.2]
      decide
  have hlocal : readLocal? isoSeconds t = some v := by
    rw [readLocal?, read?_isoSeconds_of_sortable hf, Option.bind_some, hv]
  rw [readDefault?, htimestamp, Option.none_or, isoFormats, firstOf?, hlocal, Option.some_or,
    Option.some_or]

/-! ## hints of one letter -/

/-- The first two forms without a hint are those of the round trip. -/
theorem readDefault?_of_roundTrip (h : (readTimestamp? t).or (readLocal? isoSeconds t) = some v) :
    readDefault? k t = some v := by
  rw [readDefault?, isoFormats, firstOf?]
  rcases Option.or_eq_some_iff.mp h with htimestamp | ⟨htimestamp, hlocal⟩
  · rw [htimestamp, Option.some_or]
  · rw [htimestamp, hlocal, Option.none_or, Option.some_or, Option.some_or]

/-- What is read by a hint of one letter for a date or a date-time is read the same way without
one. -/
theorem parse?_standard (hc : c ∈ ['o', 'O', 's', 'd', 'g', 'G'])
    (h : parse? k (some [c]) raw = some v) : parse? k none raw = some v := by
  have hne := trim_ne_nil_of_parse? h
  rw [parse?_hinted k [c] hne] at h
  rw [parse?_default k hne]
  simp only [List.mem_cons, List.not_mem_nil, or_false] at hc
  rcases hc with rfl | rfl | rfl | rfl | rfl | rfl
  · exact readDefault?_of_roundTrip h
  · exact readDefault?_of_roundTrip h
  · exact readDefault?_of_sortable h
  · exact readDefault?_of_date h
  · have hread : readBy? (slashed k.dateOrder .minutes) (Text.trim raw) = some v := h
    rw [readBy?_slashed (by decide)] at hread
    exact readDefault?_of_local (by decide) hread
  · have hread : readBy? (slashed k.dateOrder .seconds) (Text.trim raw) = some v := h
    rw [readBy?_slashed (by decide)] at hread
    exact readDefault?_of_local (by decide) hread

/-- A year with a sign takes all of its digits, and no space needs to stand before the hour. -/
theorem parse?_standard_signed_year :
    'g' ∈ ['o', 'O', 's', 'd', 'g', 'G'] ∧
      parse? ⟨'.', ',', .yearMonthDay⟩ (some ['g']) "+02017/ 3/0523:59".toList
        = some ⟨⟨2017, 3, 5, by decide⟩, ⟨23, 59, 0, 0, by decide⟩⟩ ∧
      parse? ⟨'.', ',', .yearMonthDay⟩ none "+02017/ 3/0523:59".toList
        = some ⟨⟨2017, 3, 5, by decide⟩, ⟨23, 59, 0, 0, by decide⟩⟩ := by
  have hhint : parse? ⟨'.', ',', .yearMonthDay⟩ (some ['g']) "+02017/ 3/0523:59".toList
      = some ⟨⟨2017, 3, 5, by decide⟩, ⟨23, 59, 0, 0, by decide⟩⟩ := by
    decide +kernel
  exact ⟨by decide, hhint, parse?_standard (by decide) hhint⟩

end FormatInverse.Calendar
