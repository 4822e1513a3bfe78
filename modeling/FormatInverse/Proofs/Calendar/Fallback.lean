import FormatInverse.Proofs.Calendar.Day
import FormatInverse.Proofs.Calendar.Translation

/-!
# What a custom hint leaves out of a text

A text is read by the format of a custom hint once, and its fields are then taken with their offset,
without it, or as the date alone (`readBy?_eq_some_iff`).  So a part of the text is left out of the
value exactly where the fields do not make up more:

* the time of day where it is not determined (`parse?_incomplete_time`), which is so for some hints
  only (`SettlesTime`);
* the offset where it is a day or more, where it leads out of the calendar, or where there is no
  time of day (`parse?_offset`).
-/

namespace FormatInverse.Calendar

open Hint (Piece pieces? HasRun)

variable {e : Entry} {f : Fields} {t hint raw format : Text} {v : DateTime} {k : Culture}
  {pieces : List Piece}

/-! ## hints that settle the time of day -/

namespace Hint

/-- The letters of a hint settle the time of day: an hour of the day, or of its half and the half, a
minute, and a second if there may be a fraction of it. -/
structure SettlesTime (pieces : List Piece) : Prop where
  hour : HasRun pieces 'H' ∨ HasRun pieces 'h' ∧ HasRun pieces 't'
  minute : HasRun pieces 'm'
  second : HasRun pieces 'f' ∨ HasRun pieces 'F' → HasRun pieces 's'

/-- Only the letters of a fraction stand for a part of a second. -/
theorem nanosecond_mem_letterEntries {c : Char} (h : .nanosecond ∈ letterEntries c) :
    c = 'f' ∨ c = 'F' := by
  unfold letterEntries at h
  split at h <;> simp_all

theorem SettlesTime.entriesOf (h : SettlesTime pieces) (hpieces : pieces? .plain hint = some pieces)
    (hformat : format? hint = some format) : Fields.SettlesTime (entriesOf (items format)) := by
  have hmem : ∀ c, HasRun pieces c → ∀ e ∈ timeEntries, e ∈ letterEntries c →
      e ∈ Calendar.entriesOf (items format) := fun c hc e he hletter =>
    (mem_entriesOf_iff hpieces hformat he).mpr ⟨c, hc, hletter⟩
  have hhour : .half ∈ Calendar.entriesOf (items format) ∧
      .hourOfHalf ∈ Calendar.entriesOf (items format) := by
    rcases h.hour with hday | ⟨hhour, hhalf⟩
    · exact ⟨hmem 'H' hday _ (by decide) (by decide), hmem 'H' hday _ (by decide) (by decide)⟩
    · exact ⟨hmem 't' hhalf _ (by decide) (by decide), hmem 'h' hhour _ (by decide) (by decide)⟩
  refine ⟨hhour.1, hhour.2, hmem 'm' h.minute _ (by decide) (by decide), ?_⟩
  intro hnanosecond
  obtain ⟨c, hc, hletter⟩ := (mem_entriesOf_iff hpieces hformat (by decide)).mp hnanosecond
  have hfraction : HasRun pieces 'f' ∨ HasRun pieces 'F' := by
    rcases nanosecond_mem_letterEntries hletter with rfl | rfl
    · exact Or.inl hc
    · exact Or.inr hc
  exact hmem 's' (h.second hfraction) _ (by decide) (by decide)

end Hint

/-! ## the fallback -/

/-- A text is read by a format once, and the most that its fields make up is taken. -/
theorem readBy?_eq_some_iff :
    readBy? format t = some v ↔ ∃ f, Fields.read? format t = some f ∧
      (f.universal? = some v ∨ f.universal? = none ∧
        (f.local? = some v ∨ f.local? = none ∧ f.startOfDay? = some v)) := by
  unfold readBy? readUniversal? readLocal? readDate?
  cases Fields.read? format t with
  | none => simp
  | some f => simp [Option.or_eq_some_iff]

/-- A text that is not blank is read by the format of a hint, which gives its fields. -/
structure Hint.Reads (hint raw : Text) (f : Fields) : Prop where
  not_blank : Text.trim raw ≠ []
  read : ∃ format, Hint.format? hint = some format ∧ Fields.read? format (Text.trim raw) = some f

/-- There is one way to read a text by a hint. -/
theorem Hint.Reads.eq {g : Fields} (hf : Hint.Reads hint raw f) (hg : Hint.Reads hint raw g) :
    f = g := by
  obtain ⟨format, hformat, hread⟩ := hf.read
  obtain ⟨format', hformat', hread'⟩ := hg.read
  rw [hformat] at hformat'
  cases hformat'
  rw [hread] at hread'
  exact Option.some.inj hread'

theorem Hint.Reads.inRange (h : Hint.Reads hint raw f) : f.InRange := by
  obtain ⟨format, -, hread⟩ := h.read
  exact Fields.inRange_of_read? hread

theorem Hint.Reads.hasTime (h : Hint.Reads hint raw f)
    (hpieces : pieces? .plain hint = some pieces) (hsettles : Hint.SettlesTime pieces) :
    f.HasTime := by
  obtain ⟨format, hformat, hread⟩ := h.read
  exact Fields.hasTime_of_read? hread (hsettles.entriesOf hpieces hformat)

/-- A hint with letters for an offset makes it known. -/
theorem Hint.Reads.exists_offset (h : Hint.Reads hint raw f)
    (hpieces : pieces? .plain hint = some pieces) (hzone : HasRun pieces 'z' ∨ HasRun pieces 'K') :
    ∃ offset, f.offset = some offset := by
  obtain ⟨format, hformat, hread⟩ := h.read
  have hmem : .offset ∈ entriesOf (items format) := by
    rw [Hint.mem_entriesOf_iff hpieces hformat (by decide)]
    rcases hzone with hz | hK
    · exact ⟨'z', hz, by decide⟩
    · exact ⟨'K', hK, by decide⟩
  exact Option.isSome_iff_exists.mp ((Fields.knows_of_read? hread (by decide)).mpr hmem)

/-- A hint of more than one letter describes the text. -/
theorem parse?_custom (k : Culture) (hlong : 2 ≤ hint.length) :
    parse? k (some hint) raw = some v ↔ ∃ f, Hint.Reads hint raw f ∧
      (f.universal? = some v ∨ f.universal? = none ∧
        (f.local? = some v ∨ f.local? = none ∧ f.startOfDay? = some v)) := by
  have hhinted : ∀ t, readHinted? k hint t = (Hint.format? hint).bind (readBy? · t) := by
    intro t
    unfold readHinted?
    split
    · simp at hlong
    · rfl
  constructor
  · intro h
    have hne := trim_ne_nil_of_parse? h
    rw [parse?_hinted k hint hne, hhinted] at h
    obtain ⟨format, hformat, h⟩ := Option.bind_eq_some_iff.mp h
    obtain ⟨f, hread, hvalue⟩ := readBy?_eq_some_iff.mp h
    exact ⟨f, ⟨hne, format, hformat, hread⟩, hvalue⟩
  · rintro ⟨f, ⟨hne, format, hformat, hread⟩, hvalue⟩
    rw [parse?_hinted k hint hne, hhinted, hformat]
    exact readBy?_eq_some_iff.mpr ⟨f, hread, hvalue⟩

/-! ## the time of day -/

namespace Fields

theorem startOfDay?_eq_some_iff :
    f.startOfDay? = some v ↔ f.date? = some v.date ∧ v.time = .midnight := by
  unfold startOfDay?
  rw [Option.map_eq_some_iff]
  constructor
  · rintro ⟨d, hd, rfl⟩
    exact ⟨hd, rfl⟩
  · rintro ⟨hd, htime⟩
    exact ⟨v.date, hd, by rw [← htime]⟩

/-- The date stands alone exactly where there is one, and no time of day is determined. -/
theorem dateAlone_iff (hf : f.InRange) :
    f.local? = none ∧ f.startOfDay? = some v ↔
      f.date? = some v.date ∧ v.time = .midnight ∧ ¬ f.HasTime := by
  rw [startOfDay?_eq_some_iff]
  constructor
  · rintro ⟨hlocal, hdate, htime⟩
    refine ⟨hdate, htime, fun hhas => ?_⟩
    rw [date?_eq_none_of_local? hf hhas hlocal] at hdate
    cases hdate
  · rintro ⟨hdate, htime, hhas⟩
    refine ⟨Option.eq_none_iff_forall_ne_some.mpr fun w hw => hhas ?_, hdate, htime⟩
    exact (exists_time?_iff hf).mp ⟨w.time, (local?_eq_some_iff.mp hw).2⟩

/-- Without a date-time there is none in Greenwich. -/
theorem universal?_of_local? (h : f.local? = none) : f.universal? = none := by
  unfold universal?
  rw [h]
  cases f.offset <;> rfl

end Fields

/-- A text that is not a whole date-time by a custom hint is not read at all, unless its time of day
is not determined: then it is the beginning of its date.  Where the letters of the hint settle the
time of day that is never so. -/
theorem parse?_incomplete_time (k : Culture) (hlong : 2 ≤ hint.length)
    (hpieces : Hint.pieces? .plain hint = some pieces)
    (hincomplete : ∀ f, Hint.Reads hint raw f → f.universal? = none ∧ f.local? = none) :
    (Hint.SettlesTime pieces → parse? k (some hint) raw = none) ∧
      ∀ v, parse? k (some hint) raw = some v ↔
        v.time = .midnight ∧ ∃ f, Hint.Reads hint raw f ∧ f.date? = some v.date ∧ ¬ f.HasTime := by
  have hvalue : ∀ v, parse? k (some hint) raw = some v ↔
      v.time = .midnight ∧ ∃ f, Hint.Reads hint raw f ∧ f.date? = some v.date ∧ ¬ f.HasTime := by
    intro v
    rw [parse?_custom k hlong]
    constructor
    · rintro ⟨f, hf, hvalue⟩
      obtain ⟨huniversal, hlocal⟩ := hincomplete f hf
      rw [huniversal, hlocal] at hvalue
      simp only [reduceCtorEq, true_and, false_or] at hvalue
      obtain ⟨hdate, htime, hhas⟩ := (Fields.dateAlone_iff hf.inRange).mp ⟨hlocal, hvalue⟩
      exact ⟨htime, f, hf, hdate, hhas⟩
    · rintro ⟨htime, f, hf, hdate, hhas⟩
      have halone := (Fields.dateAlone_iff hf.inRange).mpr ⟨hdate, htime, hhas⟩
      exact ⟨f, hf, Or.inr ⟨(hincomplete f hf).1, Or.inr halone⟩⟩
  refine ⟨fun hsettles => Option.eq_none_iff_forall_ne_some.mpr fun v hv => ?_, hvalue⟩
  obtain ⟨-, f, hf, -, htime⟩ := (hvalue v).mp hv
  exact htime (hf.hasTime hpieces hsettles)

/-- Half past one, but not whether in the morning or in the afternoon. -/
theorem parse?_incomplete_time_half_past_one :
    2 ≤ "dd/MM/yyyy hh:mm".toList.length ∧
      Hint.pieces? .plain "dd/MM/yyyy hh:mm".toList = some [.run 'd' 2, .literal '/', .run 'M' 2,
        .literal '/', .run 'y' 4, .literal ' ', .run 'h' 2, .literal ':', .run 'm' 2] ∧
      (∀ f, Hint.Reads "dd/MM/yyyy hh:mm".toList "30/10/2017 01:30".toList f →
        f.universal? = none ∧ f.local? = none) ∧
      parse? .invariant (some "dd/MM/yyyy hh:mm".toList) "30/10/2017 01:30".toList
        = some ⟨⟨2017, 10, 30, by decide⟩, .midnight⟩ := by
  have hreads : Hint.Reads "dd/MM/yyyy hh:mm".toList "30/10/2017 01:30".toList
      { Fields.empty with
        year := some 2017, month := some 10, day := some 30, hourOfHalf := some 1,
        minute := some 30 } :=
    ⟨by decide, "%d/%m/%Y %I:%M".toList, by decide, by decide +kernel⟩
  have hincomplete : ∀ f, Hint.Reads "dd/MM/yyyy hh:mm".toList "30/10/2017 01:30".toList f →
      f.universal? = none ∧ f.local? = none := by
    intro f hf
    rw [hf.eq hreads]
    decide
  have hlong : 2 ≤ "dd/MM/yyyy hh:mm".toList.length := by decide
  have hpieces : Hint.pieces? .plain "dd/MM/yyyy hh:mm".toList = some [.run 'd' 2, .literal '/',
      .run 'M' 2, .literal '/', .run 'y' 4, .literal ' ', .run 'h' 2, .literal ':',
      .run 'm' 2] := by
    decide
  have hvalue := (parse?_incomplete_time .invariant hlong hpieces hincomplete).2
  exact ⟨hlong, hpieces, hincomplete,
    (hvalue _).mpr ⟨rfl, _, hreads, by decide, fun htime => Bool.noConfusion htime.half⟩⟩

/-! ## the offset -/

namespace Fields

variable {offset : Int}

/-- In Greenwich it is earlier by the offset, if that can be taken off. -/
theorem universal?_eq_some_iff (h : f.offset = some offset) :
    f.universal? = some v ↔ ∃ t, f.local? = some t ∧ t.Admits offset ∧ v.Precedes t offset := by
  have huniversal : f.universal? = f.local?.bind fun t =>
      if -1440 < offset ∧ offset < 1440 then t.minus? offset else none := by
    unfold universal?
    rw [h]
    rfl
  rw [huniversal, Option.bind_eq_some_iff]
  constructor
  · rintro ⟨t, ht, hv⟩
    obtain ⟨hday, hv⟩ := Option.ite_none_right_eq_some.mp hv
    have hprecedes := (DateTime.minus?_eq_some_iff hday).mp hv
    exact ⟨t, ht, ⟨hday, v, hprecedes⟩, hprecedes⟩
  · rintro ⟨t, ht, ⟨hday, -⟩, hv⟩
    refine ⟨t, ht, ?_⟩
    rw [if_pos hday]
    exact (DateTime.minus?_eq_some_iff hday).mpr hv

/-- The date-time that is written stands alone where the offset cannot be taken off. -/
theorem localAlone_iff (h : f.offset = some offset) :
    f.universal? = none ∧ f.local? = some v ↔ f.local? = some v ∧ ¬ v.Admits offset := by
  constructor
  · rintro ⟨huniversal, hlocal⟩
    refine ⟨hlocal, fun hadmits => ?_⟩
    obtain ⟨w, hw⟩ := hadmits.2
    have hsome := (universal?_eq_some_iff h).mpr ⟨v, hlocal, hadmits, hw⟩
    rw [huniversal] at hsome
    cases hsome
  · rintro ⟨hlocal, hadmits⟩
    refine ⟨Option.eq_none_iff_forall_ne_some.mpr fun w hw => hadmits ?_, hlocal⟩
    obtain ⟨t, ht, hadmits', -⟩ := (universal?_eq_some_iff h).mp hw
    rw [hlocal] at ht
    cases ht
    exact hadmits'

/-- The most that the fields make up, where an offset is among them. -/
theorem fallback_iff (hf : f.InRange) (h : f.offset = some offset) :
    (f.universal? = some v ∨ f.universal? = none ∧
        (f.local? = some v ∨ f.local? = none ∧ f.startOfDay? = some v)) ↔
      (∃ t, f.local? = some t ∧ t.Admits offset ∧ v.Precedes t offset) ∨
        (f.local? = some v ∧ ¬ v.Admits offset) ∨
        (f.date? = some v.date ∧ v.time = .midnight ∧ ¬ f.HasTime) := by
  rw [universal?_eq_some_iff h, ← localAlone_iff h, ← dateAlone_iff hf, and_or_left]
  refine or_congr Iff.rfl (or_congr Iff.rfl ?_)
  exact and_iff_right_of_imp fun halone => universal?_of_local? halone.1

end Fields

/-- A text with an offset is read by a custom hint as the date-time that is written less the offset.
Where the offset cannot be taken off it is read as if there were none, and without a time of day as
the beginning of its date.  So the offset is never left out of a date-time from which it can be taken
off, if the letters of the hint settle the time of day. -/
theorem parse?_offset (k : Culture) (hlong : 2 ≤ hint.length)
    (hpieces : Hint.pieces? .plain hint = some pieces)
    (hzone : Hint.HasRun pieces 'z' ∨ Hint.HasRun pieces 'K') :
    (Hint.SettlesTime pieces →
      (∀ f offset t, Hint.Reads hint raw f → f.offset = some offset → f.local? = some t →
        t.Admits offset) →
      ∀ v, parse? k (some hint) raw = some v ↔
        ∃ f offset t, Hint.Reads hint raw f ∧ f.offset = some offset ∧ f.local? = some t ∧
          v.Precedes t offset) ∧
      ∀ v, parse? k (some hint) raw = some v ↔
        ∃ f offset, Hint.Reads hint raw f ∧ f.offset = some offset ∧
          ((∃ t, f.local? = some t ∧ t.Admits offset ∧ v.Precedes t offset) ∨
            (f.local? = some v ∧ ¬ v.Admits offset) ∨
            (f.date? = some v.date ∧ v.time = .midnight ∧ ¬ f.HasTime)) := by
  refine and_comm.mp ⟨fun v => ?_, fun hsettles hadmits v => ?_⟩
  · rw [parse?_custom k hlong]
    constructor
    · rintro ⟨f, hf, hvalue⟩
      obtain ⟨offset, hoffset⟩ := hf.exists_offset hpieces hzone
      exact ⟨f, offset, hf, hoffset, (Fields.fallback_iff hf.inRange hoffset).mp hvalue⟩
    · rintro ⟨f, offset, hf, hoffset, hvalue⟩
      exact ⟨f, hf, (Fields.fallback_iff hf.inRange hoffset).mpr hvalue⟩
  · rw [parse?_custom k hlong]
    constructor
    · rintro ⟨f, hf, hvalue⟩
      obtain ⟨offset, hoffset⟩ := hf.exists_offset hpieces hzone
      rcases (Fields.fallback_iff hf.inRange hoffset).mp hvalue with
        ⟨t, ht, -, hv⟩ | ⟨hlocal, hnot⟩ | ⟨-, -, htime⟩
      · exact ⟨f, offset, t, hf, hoffset, ht, hv⟩
      · exact absurd (hadmits f offset v hf hoffset hlocal) hnot
      · exact absurd (hf.hasTime hpieces hsettles) htime
    · rintro ⟨f, offset, t, hf, hoffset, ht, hv⟩
      have huniversal := (Fields.universal?_eq_some_iff hoffset).mpr
        ⟨t, ht, hadmits f offset t hf hoffset ht, hv⟩
      exact ⟨f, hf, Or.inl huniversal⟩

/-- An offset of a whole day is too much. -/
theorem parse?_offset_of_a_day :
    2 ≤ "dd/MM/yyyy HH:mm zzz".toList.length ∧
      Hint.pieces? .plain "dd/MM/yyyy HH:mm zzz".toList = some [.run 'd' 2, .literal '/',
        .run 'M' 2, .literal '/', .run 'y' 4, .literal ' ', .run 'H' 2, .literal ':', .run 'm' 2,
        .literal ' ', .run 'z' 3] ∧
      (Hint.HasRun [.run 'd' 2, .literal '/', .run 'M' 2, .literal '/', .run 'y' 4, .literal ' ',
        .run 'H' 2, .literal ':', .run 'm' 2, .literal ' ', .run 'z' 3] 'z') ∧
      parse? .invariant (some "dd/MM/yyyy HH:mm zzz".toList) "30/10/2017 13:05 +24:00".toList
        = some ⟨⟨2017, 10, 30, by decide⟩, ⟨13, 5, 0, 0, by decide⟩⟩ := by
  have hreads : Hint.Reads "dd/MM/yyyy HH:mm zzz".toList "30/10/2017 13:05 +24:00".toList
      { Fields.empty with
        year := some 2017, month := some 10, day := some 30, half := some 1,
        hourOfHalf := some 1, minute := some 5, offset := some 1440 } :=
    ⟨by decide, "%d/%m/%Y %H:%M %:z".toList, by decide, by decide +kernel⟩
  have hlong : 2 ≤ "dd/MM/yyyy HH:mm zzz".toList.length := by decide
  have hpieces : Hint.pieces? .plain "dd/MM/yyyy HH:mm zzz".toList = some [.run 'd' 2, .literal '/',
      .run 'M' 2, .literal '/', .run 'y' 4, .literal ' ', .run 'H' 2, .literal ':', .run 'm' 2,
      .literal ' ', .run 'z' 3] := by
    decide
  have hzone : Hint.HasRun [.run 'd' 2, .literal '/', .run 'M' 2, .literal '/', .run 'y' 4,
      .literal ' ', .run 'H' 2, .literal ':', .run 'm' 2, .literal ' ', .run 'z' 3] 'z' :=
    ⟨3, by simp⟩
  have hvalue : ∀ v, parse? .invariant _ "30/10/2017 13:05 +24:00".toList = some v ↔ _ :=
    (parse?_offset .invariant hlong hpieces (Or.inl hzone)).2
  exact ⟨hlong, hpieces, hzone, (hvalue _).mpr ⟨_, 1440, hreads, rfl,
    Or.inr (Or.inl ⟨by decide, fun hadmits => absurd hadmits.1.2 (by decide)⟩)⟩⟩

end FormatInverse.Calendar
