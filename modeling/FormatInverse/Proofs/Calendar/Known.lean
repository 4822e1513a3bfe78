import FormatInverse.Calendar.Parse
import FormatInverse.Proofs.Calendar.Format

/-!
# What is known of a date-time that has been read

Every item of a format names the entries that are known once it has been read (`Item.entries`), and
nothing else becomes known: `Fields.extendsBy_of_readItems?` says so of a whole format.  Only a
fraction may be left out in the text.

What has been read is in the ranges of a clock (`Fields.InRange`), so a time of day is determined if
and only if enough of it is known (`Fields.exists_time?_iff`).
-/

namespace FormatInverse.Calendar

/-- the numbers that `Fields` can hold -/
inductive Entry where
  | year
  | yearOfCentury
  | month
  | day
  | weekday
  | half
  | hourOfHalf
  | minute
  | second
  | nanosecond
  | offset
  deriving DecidableEq, Repr

variable {α : Type} {e : Entry} {es es' : List Entry} {f g g' : Fields}
  {field : Field} {item : Item} {is : List Item} {t u : Text} {lo hi n : Nat} {i : Int}
  {v : DateTime}

/-! ## entries -/

namespace Fields

def Knows (f : Fields) : Entry → Prop
  | .year => f.year.isSome
  | .yearOfCentury => f.yearOfCentury.isSome
  | .month => f.month.isSome
  | .day => f.day.isSome
  | .weekday => f.weekday.isSome
  | .half => f.half.isSome
  | .hourOfHalf => f.hourOfHalf.isSome
  | .minute => f.minute.isSome
  | .second => f.second.isSome
  | .nanosecond => f.nanosecond.isSome
  | .offset => f.offset.isSome

/-- The numbers of the time of day are those of a clock; a second may be a leap second. -/
structure InRange (f : Fields) : Prop where
  half : ∀ n ∈ f.half, n ≤ 1
  hourOfHalf : ∀ n ∈ f.hourOfHalf, n < 12
  minute : ∀ n ∈ f.minute, n < 60
  second : ∀ n ∈ f.second, n ≤ 60
  nanosecond : ∀ n ∈ f.nanosecond, n < 1000000000

/-- Of `g` some entries more are known than of `f`, and they are in range. -/
structure Extends (f g : Fields) (es : List Entry) : Prop where
  knows : ∀ e, g.Knows e ↔ f.Knows e ∨ e ∈ es
  inRange : f.InRange → g.InRange

theorem not_knows_empty (e : Entry) : ¬ empty.Knows e := by
  cases e <;> exact Bool.false_ne_true

theorem inRange_empty : empty.InRange := by
  constructor <;> rintro n ⟨⟩

/-! ## one number more -/

theorem agree?_eq_some [DecidableEq α] {old v : Option α} {new : α} (h : agree? old new = some v) :
    v = some new := by
  unfold agree? at h
  split_ifs at h
  exact (Option.some.inj h).symm

theorem agreeIn?_eq_some {old v : Option Nat} (h : agreeIn? old lo hi n = some v) :
    v = some n ∧ lo ≤ n ∧ n ≤ hi := by
  obtain ⟨hrange, h⟩ := Option.ite_none_right_eq_some.mp h
  exact ⟨agree?_eq_some h, hrange⟩

theorem extends_withYear? (h : f.withYear? i = some g) : f.Extends g [.year] := by
  obtain ⟨v, hv, rfl⟩ := Option.map_eq_some_iff.mp h
  obtain rfl := agree?_eq_some hv
  exact ⟨fun e => by cases e <;> simp [Knows], fun hf => { hf with }⟩

theorem extends_withYearOfCentury? (h : f.withYearOfCentury? n = some g) :
    f.Extends g [.yearOfCentury] := by
  obtain ⟨v, hv, rfl⟩ := Option.map_eq_some_iff.mp h
  obtain ⟨rfl, -⟩ := agreeIn?_eq_some hv
  exact ⟨fun e => by cases e <;> simp [Knows], fun hf => { hf with }⟩

theorem extends_withMonth? (h : f.withMonth? n = some g) : f.Extends g [.month] := by
  obtain ⟨v, hv, rfl⟩ := Option.map_eq_some_iff.mp h
  obtain ⟨rfl, -⟩ := agreeIn?_eq_some hv
  exact ⟨fun e => by cases e <;> simp [Knows], fun hf => { hf with }⟩

theorem extends_withDay? (h : f.withDay? n = some g) : f.Extends g [.day] := by
  obtain ⟨v, hv, rfl⟩ := Option.map_eq_some_iff.mp h
  obtain ⟨rfl, -⟩ := agreeIn?_eq_some hv
  exact ⟨fun e => by cases e <;> simp [Knows], fun hf => { hf with }⟩

theorem extends_withWeekday? (h : f.withWeekday? n = some g) : f.Extends g [.weekday] := by
  obtain ⟨v, hv, rfl⟩ := Option.map_eq_some_iff.mp h
  obtain ⟨rfl, -⟩ := agreeIn?_eq_some hv
  exact ⟨fun e => by cases e <;> simp [Knows], fun hf => { hf with }⟩

theorem extends_withOffset? (h : f.withOffset? i = some g) : f.Extends g [.offset] := by
  obtain ⟨v, hv, rfl⟩ := Option.map_eq_some_iff.mp h
  obtain rfl := agree?_eq_some hv
  exact ⟨fun e => by cases e <;> simp [Knows], fun hf => { hf with }⟩

theorem extends_withHalf? (h : f.withHalf? n = some g) : f.Extends g [.half] := by
  obtain ⟨v, hv, rfl⟩ := Option.map_eq_some_iff.mp h
  obtain ⟨rfl, -, hn⟩ := agreeIn?_eq_some hv
  refine ⟨fun e => by cases e <;> simp [Knows], fun hf => { hf with half := ?_ }⟩
  rintro m ⟨⟩
  omega

theorem extends_withMinute? (h : f.withMinute? n = some g) : f.Extends g [.minute] := by
  obtain ⟨v, hv, rfl⟩ := Option.map_eq_some_iff.mp h
  obtain ⟨rfl, -, hn⟩ := agreeIn?_eq_some hv
  refine ⟨fun e => by cases e <;> simp [Knows], fun hf => { hf with minute := ?_ }⟩
  rintro m ⟨⟩
  omega

theorem extends_withSecond? (h : f.withSecond? n = some g) : f.Extends g [.second] := by
  obtain ⟨v, hv, rfl⟩ := Option.map_eq_some_iff.mp h
  obtain ⟨rfl, -, hn⟩ := agreeIn?_eq_some hv
  refine ⟨fun e => by cases e <;> simp [Knows], fun hf => { hf with second := ?_ }⟩
  rintro m ⟨⟩
  omega

theorem extends_withNanosecond? (h : f.withNanosecond? n = some g) : f.Extends g [.nanosecond] := by
  obtain ⟨v, hv, rfl⟩ := Option.map_eq_some_iff.mp h
  obtain ⟨rfl, -, hn⟩ := agreeIn?_eq_some hv
  refine ⟨fun e => by cases e <;> simp [Knows], fun hf => { hf with nanosecond := ?_ }⟩
  rintro m ⟨⟩
  omega

theorem extends_withHour12? (h : f.withHour12? n = some g) : f.Extends g [.hourOfHalf] := by
  obtain ⟨-, h⟩ := Option.ite_none_right_eq_some.mp h
  obtain ⟨v, hv, rfl⟩ := Option.map_eq_some_iff.mp h
  obtain rfl := agree?_eq_some hv
  refine ⟨fun e => by cases e <;> simp [Knows], fun hf => { hf with hourOfHalf := ?_ }⟩
  rintro m ⟨⟩
  omega

theorem extends_withHour24? (h : f.withHour24? n = some g) : f.Extends g [.half, .hourOfHalf] := by
  obtain ⟨hn, h⟩ := Option.ite_none_right_eq_some.mp h
  obtain ⟨half, hhalf, h⟩ := Option.bind_eq_some_iff.mp h
  obtain ⟨hour, hhour, h⟩ := Option.bind_eq_some_iff.mp h
  obtain rfl := agree?_eq_some hhalf
  obtain rfl := agree?_eq_some hhour
  cases h
  refine ⟨fun e => by cases e <;> simp [Knows], fun hf => { hf with half := ?_, hourOfHalf := ?_ }⟩
  · rintro m ⟨⟩
    omega
  · rintro m ⟨⟩
    omega

end Fields

/-! ## fields and items -/

/-- what is known once a field has been read -/
def Field.entries : Field → List Entry
  | year => [.year]
  | yearOfCentury => [.yearOfCentury]
  | month | monthName _ => [.month]
  | day => [.day]
  | weekdayName _ => [.weekday]
  | hour24 => [.half, .hourOfHalf]
  | hour12 => [.hourOfHalf]
  | minute => [.minute]
  | second => [.second]
  | half => [.half]
  | fraction | digits _ => [.nanosecond]
  | offset _ => [.offset]

def Item.entries : Item → List Entry
  | .field g => g.entries
  | _ => []

theorem extends_of_scan_then {scan : Option (α × Text)} {put? : α × Text → Option Fields}
    (hput : ∀ p g, put? p = some g → f.Extends g es)
    (h : (scan.bind fun p => (put? p).bind fun g => some (g, p.2)) = some (g, u)) :
    f.Extends g es := by
  obtain ⟨a, -, ha⟩ := exists_of_scan_then h
  exact hput (a, u) g ha

/-- A field is read into its entries, but a fraction that is not there into none. -/
theorem Field.extends_of_scan? (h : field.scan? f t = some (g, u)) :
    f.Extends g field.entries ∨ field = .fraction ∧ g = f := by
  cases field with
  | fraction =>
    unfold Field.scan? at h
    dsimp only at h
    split at h
    · exact Or.inl (extends_of_scan_then (fun _ _ => Fields.extends_withNanosecond?) h)
    · obtain ⟨rfl, -⟩ := Prod.mk.inj (Option.some.inj h)
      exact Or.inr ⟨rfl, rfl⟩
  | year => exact Or.inl (extends_of_scan_then (fun _ _ => Fields.extends_withYear?) h)
  | yearOfCentury =>
    exact Or.inl (extends_of_scan_then (fun _ _ => Fields.extends_withYearOfCentury?) h)
  | month => exact Or.inl (extends_of_scan_then (fun _ _ => Fields.extends_withMonth?) h)
  | monthName long =>
    cases long <;> exact Or.inl (extends_of_scan_then (fun _ _ => Fields.extends_withMonth?) h)
  | day => exact Or.inl (extends_of_scan_then (fun _ _ => Fields.extends_withDay?) h)
  | weekdayName long =>
    cases long <;> exact Or.inl (extends_of_scan_then (fun _ _ => Fields.extends_withWeekday?) h)
  | hour24 => exact Or.inl (extends_of_scan_then (fun _ _ => Fields.extends_withHour24?) h)
  | hour12 => exact Or.inl (extends_of_scan_then (fun _ _ => Fields.extends_withHour12?) h)
  | minute => exact Or.inl (extends_of_scan_then (fun _ _ => Fields.extends_withMinute?) h)
  | second => exact Or.inl (extends_of_scan_then (fun _ _ => Fields.extends_withSecond?) h)
  | half => exact Or.inl (extends_of_scan_then (fun _ _ => Fields.extends_withHalf?) h)
  | digits count =>
    exact Or.inl (extends_of_scan_then (fun _ _ => Fields.extends_withNanosecond?) h)
  | offset lenient =>
    cases lenient <;> exact Or.inl (extends_of_scan_then (fun _ _ => Fields.extends_withOffset?) h)

/-! ## formats -/

/-- what is known once some items have been read -/
def entriesOf (is : List Item) : List Entry := is.flatMap Item.entries

/-- Reading makes exactly the entries of the items known; only a part of a second, which a fraction
may lack, is perhaps not among them. -/
structure Fields.ExtendsBy (f g : Fields) (is : List Item) : Prop where
  knows : ∀ e ≠ .nanosecond, g.Knows e ↔ f.Knows e ∨ e ∈ entriesOf is
  nanosecond : g.Knows .nanosecond → f.Knows .nanosecond ∨ .nanosecond ∈ entriesOf is
  inRange : f.InRange → g.InRange

theorem Item.extendsBy_of_scan? (h : item.scan? f t = some (g, u)) : f.ExtendsBy g [item] := by
  have hentries : entriesOf [item] = item.entries := List.append_nil _
  cases item with
  | literal c =>
    have hg : f = g := by
      unfold Item.scan? at h
      dsimp only at h
      split at h
      · exact (Prod.mk.inj (Option.some.inj h)).1
      · obtain ⟨u', -, heq⟩ := Option.map_eq_some_iff.mp h
        exact (Prod.mk.inj heq).1
    rw [← hg]
    exact ⟨fun e _ => by simp [hentries, Item.entries], Or.inl, id⟩
  | field field =>
    rcases Field.extends_of_scan? h with hextends | ⟨rfl, rfl⟩
    · exact ⟨fun e _ => hentries ▸ hextends.knows e, hentries ▸ (hextends.knows _).mp,
        hextends.inRange⟩
    · refine ⟨fun e he => ?_, Or.inl, id⟩
      simp [hentries, Item.entries, Field.entries, he]
  | unknown => cases h

theorem Fields.ExtendsBy.trans {g' : Fields} {is' : List Item} (h : f.ExtendsBy g is)
    (h' : g.ExtendsBy g' is') : f.ExtendsBy g' (is ++ is') := by
  have happend : entriesOf (is ++ is') = entriesOf is ++ entriesOf is' := List.flatMap_append
  refine ⟨fun e he => ?_, fun hn => ?_, fun hf => h'.inRange (h.inRange hf)⟩
  · rw [h'.knows e he, h.knows e he, happend, List.mem_append, or_assoc]
  · rw [happend, List.mem_append, ← or_assoc]
    exact (h'.nanosecond hn).imp_left h.nanosecond

theorem Fields.extendsBy_of_readItems? (h : readItems? is f t = some g) : f.ExtendsBy g is := by
  induction is generalizing f t with
  | nil =>
    obtain ⟨-, h⟩ := Option.ite_none_right_eq_some.mp h
    cases h
    exact ⟨fun e _ => by simp [entriesOf], Or.inl, id⟩
  | cons item is ih =>
    rw [readItems?_cons] at h
    obtain ⟨⟨f', t'⟩, hscan, hrest⟩ := Option.bind_eq_some_iff.mp h
    exact (Item.extendsBy_of_scan? hscan).trans (ih hrest)

/-! ## the time of day that is known -/

namespace Fields

/-- Enough is known for a time of day: the hour since midnight, the minute, and the second if there
is a part of one. -/
structure HasTime (f : Fields) : Prop where
  half : f.Knows .half
  hourOfHalf : f.Knows .hourOfHalf
  minute : f.Knows .minute
  second : f.Knows .nanosecond → f.Knows .second

theorem exists_clock? {hour minute second nanosecond : Nat} (hhour : hour < 24)
    (hminute : minute < 60) (hsecond : second ≤ 60) (hnanosecond : nanosecond < 1000000000) :
    ∃ s, clock? hour minute second nanosecond = some s := by
  unfold clock?
  split
  · exact ⟨_, dif_pos ⟨hhour, hminute, by decide, by omega⟩⟩
  · exact ⟨_, dif_pos ⟨hhour, hminute, by omega, by omega⟩⟩

/-- A time of day is determined if enough of it is known. -/
theorem exists_time?_iff (hf : f.InRange) : (∃ s, f.time? = some s) ↔ f.HasTime := by
  constructor
  · rintro ⟨s, hs⟩
    obtain ⟨half, hhalf, hs⟩ := Option.bind_eq_some_iff.mp hs
    obtain ⟨hour, hhour, hs⟩ := Option.bind_eq_some_iff.mp hs
    obtain ⟨minute, hminute, hs⟩ := Option.bind_eq_some_iff.mp hs
    refine ⟨by simp [Knows, hhalf], by simp [Knows, hhour], by simp [Knows, hminute], ?_⟩
    intro hnanosecond
    obtain ⟨n, hn⟩ := Option.isSome_iff_exists.mp hnanosecond
    cases hsecond : f.second with
    | some m => simp [Knows, hsecond]
    | none =>
      rw [hsecond, hn] at hs
      cases hs
  · rintro ⟨hhalf, hhour, hminute, hsecond⟩
    obtain ⟨half, hhalf⟩ := Option.isSome_iff_exists.mp hhalf
    obtain ⟨hour, hhour⟩ := Option.isSome_iff_exists.mp hhour
    obtain ⟨minute, hminute⟩ := Option.isSome_iff_exists.mp hminute
    have hhalf' := hf.half half hhalf
    have hhour' := hf.hourOfHalf hour hhour
    have hminute' := hf.minute minute hminute
    have hday : 12 * half + hour < 24 := by omega
    simp only [time?, hhalf, hhour, hminute, Option.bind_eq_bind, Option.bind_some]
    split
    · next m hm =>
      have hnanosecond : f.nanosecond.getD 0 < 1000000000 := by
        cases hn : f.nanosecond with
        | none => decide
        | some n => exact hf.nanosecond n hn
      exact exists_clock? hday hminute' (hf.second m hm) hnanosecond
    · exact exists_clock? hday hminute' (by decide) (by decide)
    · next n hm hn =>
      have hknown : f.Knows .second := hsecond (by simp [Knows, hn])
      simp [Knows, hm] at hknown

/-- A whole format has been read from the beginning. -/
theorem knows_of_read? {format : Text} (h : read? format t = some f) (he : e ≠ .nanosecond) :
    f.Knows e ↔ e ∈ entriesOf (items format) := by
  rw [(extendsBy_of_readItems? h).knows e he]
  exact or_iff_right (not_knows_empty e)

theorem mem_entriesOf_of_read? {format : Text} (h : read? format t = some f)
    (hn : f.Knows .nanosecond) : .nanosecond ∈ entriesOf (items format) :=
  ((extendsBy_of_readItems? h).nanosecond hn).resolve_left (not_knows_empty _)

theorem inRange_of_read? {format : Text} (h : read? format t = some f) : f.InRange :=
  (extendsBy_of_readItems? h).inRange inRange_empty

/-- Enough of the time of day is among the entries, with a second if there may be a part of one. -/
structure SettlesTime (es : List Entry) : Prop where
  half : .half ∈ es
  hourOfHalf : .hourOfHalf ∈ es
  minute : .minute ∈ es
  second : .nanosecond ∈ es → .second ∈ es

/-- A format that settles the time of day does so for every text. -/
theorem hasTime_of_read? {format : Text} (h : read? format t = some f)
    (hsettles : SettlesTime (entriesOf (items format))) : f.HasTime where
  half := (knows_of_read? h (by decide)).mpr hsettles.half
  hourOfHalf := (knows_of_read? h (by decide)).mpr hsettles.hourOfHalf
  minute := (knows_of_read? h (by decide)).mpr hsettles.minute
  second hn := (knows_of_read? h (by decide)).mpr (hsettles.second (mem_entriesOf_of_read? h hn))

/-! ## the date-time that is known -/

theorem local?_eq_some_iff :
    f.local? = some v ↔ f.date? = some v.date ∧ f.time? = some v.time := by
  constructor
  · intro h
    obtain ⟨d, hd, h⟩ := Option.bind_eq_some_iff.mp h
    obtain ⟨s, hs, h⟩ := Option.bind_eq_some_iff.mp h
    cases h
    exact ⟨hd, hs⟩
  · rintro ⟨hd, hs⟩
    simp [local?, hd, hs]

/-- With a time of day only the date can be missing. -/
theorem date?_eq_none_of_local? (hf : f.InRange) (htime : f.HasTime) (h : f.local? = none) :
    f.date? = none := by
  obtain ⟨s, hs⟩ := (exists_time?_iff hf).mpr htime
  apply Option.eq_none_iff_forall_ne_some.mpr
  intro d hd
  have hlocal : f.local? = some ⟨d, s⟩ := local?_eq_some_iff.mpr ⟨hd, hs⟩
  rw [h] at hlocal
  cases hlocal

theorem universal?_eq_none (h : ¬ f.Knows .offset) : f.universal? = none := by
  have hoffset : f.offset = none := Option.not_isSome_iff_eq_none.mp h
  rw [universal?, hoffset]
  rfl

end Fields

/-- Where the time of day is settled and there is no offset, nothing of a text is left out. -/
theorem readBy?_eq_readLocal? {format : Text}
    (hsettles : Fields.SettlesTime (entriesOf (items format)))
    (hoffset : .offset ∉ entriesOf (items format)) (t : Text) :
    readBy? format t = readLocal? format t := by
  unfold readBy? readUniversal? readLocal? readDate?
  cases hread : Fields.read? format t with
  | none => rfl
  | some f =>
    have htime := Fields.hasTime_of_read? hread hsettles
    have huniversal : f.universal? = none :=
      Fields.universal?_eq_none (mt (Fields.knows_of_read? hread (by decide)).mp hoffset)
    rw [Option.bind_some, Option.bind_some, Option.bind_some, huniversal, Option.none_or]
    cases hlocal : f.local? with
    | some v => rfl
    | none =>
      have hdate := Fields.date?_eq_none_of_local? (Fields.inRange_of_read? hread) htime hlocal
      rw [Fields.startOfDay?, hdate]
      rfl

end FormatInverse.Calendar
