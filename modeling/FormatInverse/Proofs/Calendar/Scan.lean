import FormatInverse.Calendar.Format
import FormatInverse.Proofs.Template.Form
import FormatInverse.Proofs.Text.Blank

/-!
# What the scanners take

A scanner takes its part off the front of a text, so what it leaves is the end of the text
(`Field.suffix_of_scan?`), and a number of so many digits leaves the text shorter by as many.

* `scanNumber?_digits`, `scanFraction?_digits`  digits that nothing can be added to are taken as one
  number, or as the fraction of a second;
* `length_of_scanNumber?`, `length_of_scanChar?`  how much shorter the text has become.
-/

namespace FormatInverse.Calendar

variable {c : Char} {lo hi n v : Nat} {t u digits rest : Text}

/-- Characters that are not passed over are all still there. -/
theorem count_dropWhile {p : Char → Bool} (hc : p c = false) (t : Text) :
    (t.dropWhile p).count c = t.count c := by
  have hnot : c ∉ t.takeWhile p := by
    intro hmem
    rw [List.mem_takeWhile_imp hmem] at hc
    cases hc
  conv_rhs => rw [← List.takeWhile_append_dropWhile (p := p) (l := t), List.count_append,
    List.count_eq_zero_of_not_mem hnot, Nat.zero_add]

/-! ## numbers -/

theorem takeWhile_take_digits (hdigits : ∀ c ∈ digits, c.isDigit = true)
    (hlen : digits.length ≤ n)
    (hend : digits.length = n ∨ ∀ c ∈ rest.head?, c.isDigit = false) :
    ((digits ++ rest).take n).takeWhile Char.isDigit = digits := by
  rw [List.take_append, List.take_of_length_le hlen]
  apply Anchor.takeWhile_run hdigits
  intro c hc
  rcases hend with heq | hnone
  · rw [heq, Nat.sub_self] at hc
    cases hc
  · rw [List.head?_take] at hc
    split at hc
    · cases hc
    · exact hnone c hc

theorem scanNumber?_digits (hdigits : ∀ c ∈ digits, c.isDigit = true) (hlo : lo ≤ digits.length)
    (hhi : digits.length ≤ hi)
    (hend : digits.length = hi ∨ ∀ c ∈ rest.head?, c.isDigit = false) :
    scanNumber? lo hi (digits ++ rest) = some (Text.value digits, rest) := by
  unfold scanNumber?
  rw [takeWhile_take_digits hdigits hhi hend]
  dsimp only
  rw [if_pos hlo, List.drop_left]

theorem scanFraction?_digits (hdigits : ∀ c ∈ digits, c.isDigit = true) (hne : digits ≠ [])
    (hlen : digits.length ≤ 9) (hend : ∀ c ∈ rest.head?, c.isDigit = false) :
    scanFraction? (digits ++ rest)
      = some (Text.value digits * Nat.pow 10 (9 - digits.length), rest) := by
  unfold scanFraction?
  rw [takeWhile_take_digits hdigits hlen (Or.inr hend)]
  dsimp only
  rw [if_neg (by simpa using hne), Anchor.dropWhile_run hdigits hend]

theorem length_of_scanNumber? (h : scanNumber? lo hi t = some (v, u)) :
    u.length + lo ≤ t.length := by
  unfold scanNumber? at h
  dsimp only at h
  split at h
  · next hlo =>
    obtain ⟨-, rfl⟩ := Prod.mk.inj (Option.some.inj h)
    have hle : ((t.take hi).takeWhile Char.isDigit).length ≤ t.length :=
      (List.takeWhile_prefix _).length_le.trans (List.length_take_le' hi t)
    rw [List.length_drop]
    omega
  · cases h

theorem length_of_scanChar? (h : scanChar? c t = some u) : u.length + 1 = t.length := by
  cases t with
  | nil => cases h
  | cons d t =>
    obtain ⟨-, ht⟩ := Option.ite_none_right_eq_some.mp h
    cases ht
    rfl

/-! ## what is left -/

theorem suffix_of_scanNumber? (h : scanNumber? lo hi t = some (v, u)) : u <:+ t := by
  unfold scanNumber? at h
  dsimp only at h
  split at h
  · obtain ⟨-, rfl⟩ := Prod.mk.inj (Option.some.inj h)
    exact List.drop_suffix _ t
  · cases h

theorem suffix_of_scanLongNumber? (h : scanLongNumber? lo t = some (digits, u)) : u <:+ t := by
  unfold scanLongNumber? at h
  dsimp only at h
  split at h
  · obtain ⟨-, rfl⟩ := Prod.mk.inj (Option.some.inj h)
    exact List.dropWhile_suffix _
  · cases h

theorem suffix_of_scanFraction? (h : scanFraction? t = some (v, u)) : u <:+ t := by
  unfold scanFraction? at h
  dsimp only at h
  split at h
  · cases h
  · obtain ⟨-, rfl⟩ := Prod.mk.inj (Option.some.inj h)
    exact List.dropWhile_suffix _

theorem suffix_of_scanFixedFraction? (h : scanFixedFraction? n t = some (v, u)) : u <:+ t := by
  obtain ⟨⟨w, u'⟩, hw, heq⟩ := Option.map_eq_some_iff.mp h
  obtain ⟨-, rfl⟩ := Prod.mk.inj heq
  exact suffix_of_scanNumber? hw

theorem suffix_of_scanChar? (h : scanChar? c t = some u) : u <:+ t := by
  cases t with
  | nil => cases h
  | cons d t =>
    obtain ⟨-, ht⟩ := Option.ite_none_right_eq_some.mp h
    cases ht
    exact List.suffix_cons d _

theorem suffix_of_scanWord? {word : Text} (h : scanWord? word t = some u) : u <:+ t := by
  obtain ⟨-, hu⟩ := Option.ite_none_right_eq_some.mp h
  cases hu
  exact List.drop_suffix _ t

theorem suffix_of_scanOneOf? {words : List Text} (h : scanOneOf? words t = some (n, u)) :
    u <:+ t := by
  induction words generalizing n with
  | nil => cases h
  | cons word words ih =>
    unfold scanOneOf? at h
    split at h
    · next rest hword =>
      obtain ⟨-, rfl⟩ := Prod.mk.inj (Option.some.inj h)
      exact suffix_of_scanWord? hword
    · obtain ⟨⟨i, rest⟩, hi, heq⟩ := Option.map_eq_some_iff.mp h
      obtain ⟨-, rfl⟩ := Prod.mk.inj heq
      exact ih hi

theorem suffix_of_scanName? {names : List (Text × Text)} (h : scanName? names t = some (n, u)) :
    u <:+ t := by
  obtain ⟨⟨i, rest⟩, hi, h⟩ := Option.bind_eq_some_iff.mp h
  obtain ⟨⟨short, more⟩, -, h⟩ := Option.bind_eq_some_iff.mp h
  obtain ⟨-, rfl⟩ := Prod.mk.inj (Option.some.inj h)
  have hrest : rest <:+ t := suffix_of_scanOneOf? hi
  cases hword : scanWord? more rest with
  | none => exact hrest
  | some v => exact (suffix_of_scanWord? hword).trans hrest

theorem suffix_of_scanSign? {wide : Bool} {sign : Int} (h : scanSign? wide t = some (sign, u)) :
    u <:+ t := by
  cases t with
  | nil => cases h
  | cons c t =>
    have hu : t = u := by
      unfold scanSign? at h
      dsimp only at h
      split_ifs at h
      · exact (Prod.mk.inj (Option.some.inj h)).2
      · exact (Prod.mk.inj (Option.some.inj h)).2
    rw [← hu]
    exact List.suffix_cons c t

theorem suffix_of_scanOffset? {wide short : Bool} {separator : Text → Option Text} {offset : Int}
    (hseparator : ∀ t u, separator t = some u → u <:+ t)
    (h : scanOffset? wide short separator t = some (offset, u)) : u <:+ t := by
  obtain ⟨⟨sign, t₁⟩, h₁, h⟩ := Option.bind_eq_some_iff.mp h
  obtain ⟨⟨hours, t₂⟩, h₂, h⟩ := Option.bind_eq_some_iff.mp h
  obtain ⟨t₃, h₃, h⟩ := Option.bind_eq_some_iff.mp h
  have hrest : t₃ <:+ t :=
    (hseparator t₂ t₃ h₃).trans ((suffix_of_scanNumber? h₂).trans (suffix_of_scanSign? h₁))
  dsimp only at h
  split at h
  · obtain ⟨-, rfl⟩ := Prod.mk.inj (Option.some.inj h)
    exact List.nil_suffix
  · obtain ⟨⟨minutes, t₄⟩, h₄, h⟩ := Option.bind_eq_some_iff.mp h
    obtain ⟨-, rfl⟩ := Prod.mk.inj (Option.some.inj h)
    exact (suffix_of_scanNumber? (Option.filter_eq_some_iff.mp h₄).1).trans hrest

theorem suffix_of_skipColons (h : skipColons t = some u) : u <:+ t := by
  cases h
  exact List.dropWhile_suffix _

theorem suffix_of_scanZulu? (h : scanZulu? t = some u) : u <:+ t := by
  cases t with
  | nil => cases h
  | cons c t =>
    obtain ⟨-, ht⟩ := Option.ite_none_right_eq_some.mp h
    cases ht
    exact List.suffix_cons c _

theorem suffix_trimStart (t : Text) : Text.trimStart t <:+ t := List.dropWhile_suffix _

/-! ## what is taken -/

theorem count_trimStart (hc : Text.isBlank c = false) (t : Text) :
    (Text.trimStart t).count c = t.count c := count_dropWhile hc t

/-- Numbers are made of digits. -/
theorem count_of_scanNumber? (hc : c.isDigit = false) (h : scanNumber? lo hi t = some (v, u)) :
    u.count c = t.count c := by
  unfold scanNumber? at h
  dsimp only at h
  split at h
  · obtain ⟨-, rfl⟩ := Prod.mk.inj (Option.some.inj h)
    have hprefix : (t.take hi).takeWhile Char.isDigit <+: t :=
      (List.takeWhile_prefix _).trans (List.take_prefix hi t)
    have hcut := List.prefix_iff_eq_append.mp hprefix
    have hnot : c ∉ (t.take hi).takeWhile Char.isDigit := by
      intro hmem
      rw [List.mem_takeWhile_imp hmem] at hc
      cases hc
    conv_rhs => rw [← hcut, List.count_append, List.count_eq_zero_of_not_mem hnot, Nat.zero_add]
  · cases h

theorem count_of_scanLongNumber? (hc : c.isDigit = false)
    (h : scanLongNumber? lo t = some (digits, u)) : u.count c = t.count c := by
  unfold scanLongNumber? at h
  dsimp only at h
  split at h
  · obtain ⟨-, rfl⟩ := Prod.mk.inj (Option.some.inj h)
    exact count_dropWhile hc t
  · cases h

theorem count_of_scanFraction? (hc : c.isDigit = false) (h : scanFraction? t = some (v, u)) :
    u.count c = t.count c := by
  unfold scanFraction? at h
  dsimp only at h
  split at h
  · cases h
  · obtain ⟨-, rfl⟩ := Prod.mk.inj (Option.some.inj h)
    exact count_dropWhile hc t

theorem count_of_scanChar? (h : scanChar? c t = some u) : t.count c = u.count c + 1 := by
  cases t with
  | nil => cases h
  | cons d t =>
    obtain ⟨rfl, ht⟩ := Option.ite_none_right_eq_some.mp h
    cases ht
    exact List.count_cons_self

/-! ## fields -/

theorem suffix_of_scanPair? (h : scanPair? t = some (v, u)) : u <:+ t :=
  (suffix_of_scanNumber? h).trans (suffix_trimStart t)

theorem suffix_of_scanYear? {y : Int} (h : scanYear? t = some (y, u)) : u <:+ t := by
  unfold scanYear? at h
  split at h
  · next rest htrim =>
    obtain ⟨⟨digits, u'⟩, hdigits, heq⟩ := Option.map_eq_some_iff.mp h
    obtain ⟨-, rfl⟩ := Prod.mk.inj heq
    have hrest : '-' :: rest <:+ t := htrim ▸ suffix_trimStart t
    exact (suffix_of_scanLongNumber? hdigits).trans ((List.suffix_cons _ _).trans hrest)
  · next rest htrim =>
    obtain ⟨⟨digits, u'⟩, hdigits, heq⟩ := Option.map_eq_some_iff.mp h
    obtain ⟨-, rfl⟩ := Prod.mk.inj heq
    have hrest : '+' :: rest <:+ t := htrim ▸ suffix_trimStart t
    exact (suffix_of_scanLongNumber? hdigits).trans ((List.suffix_cons _ _).trans hrest)
  · obtain ⟨⟨digits, u'⟩, hdigits, heq⟩ := Option.map_eq_some_iff.mp h
    obtain ⟨-, rfl⟩ := Prod.mk.inj heq
    exact (suffix_of_scanNumber? hdigits).trans (suffix_trimStart t)

theorem suffix_of_scanLenientOffset? {offset : Int}
    (h : scanLenientOffset? t = some (offset, u)) : u <:+ t := by
  unfold scanLenientOffset? at h
  split at h
  · next rest hzulu =>
    obtain ⟨-, rfl⟩ := Prod.mk.inj (Option.some.inj h)
    exact suffix_of_scanZulu? hzulu
  · exact suffix_of_scanOffset? (fun _ _ => suffix_of_skipColons) h

/-- The scanner of a field takes a value off the text and puts it among the fields. -/
theorem exists_of_scan_then {α : Type} {scan : Option (α × Text)} {put? : α × Text → Option Fields}
    {g : Fields} (h : (scan.bind fun p => (put? p).bind fun g => some (g, p.2)) = some (g, u)) :
    ∃ a, scan = some (a, u) ∧ put? (a, u) = some g := by
  obtain ⟨⟨a, r⟩, ha, h⟩ := Option.bind_eq_some_iff.mp h
  obtain ⟨g', hg', h⟩ := Option.bind_eq_some_iff.mp h
  obtain ⟨rfl, rfl⟩ := Prod.mk.inj (Option.some.inj h)
  exact ⟨a, ha, hg'⟩

/-- What a scanner leaves is the rest of the scanner of a field. -/
theorem suffix_of_scan_then {α : Type} {scan : Option (α × Text)} {put? : α × Text → Option Fields}
    {g : Fields} (hscan : ∀ a r, scan = some (a, r) → r <:+ t)
    (h : (scan.bind fun p => (put? p).bind fun g => some (g, p.2)) = some (g, u)) : u <:+ t := by
  obtain ⟨a, ha, -⟩ := exists_of_scan_then h
  exact hscan a u ha

theorem Field.suffix_of_scan? {field : Field} {f g : Fields} (h : field.scan? f t = some (g, u)) :
    u <:+ t := by
  cases field with
  | year => exact suffix_of_scan_then (fun _ _ => suffix_of_scanYear?) h
  | yearOfCentury => exact suffix_of_scan_then (fun _ _ => suffix_of_scanPair?) h
  | month => exact suffix_of_scan_then (fun _ _ => suffix_of_scanPair?) h
  | monthName long =>
    cases long with
    | true => exact suffix_of_scan_then (fun _ _ => suffix_of_scanName?) h
    | false => exact suffix_of_scan_then (fun _ _ => suffix_of_scanOneOf?) h
  | day => exact suffix_of_scan_then (fun _ _ => suffix_of_scanPair?) h
  | weekdayName long =>
    cases long with
    | true => exact suffix_of_scan_then (fun _ _ => suffix_of_scanName?) h
    | false => exact suffix_of_scan_then (fun _ _ => suffix_of_scanOneOf?) h
  | hour24 => exact suffix_of_scan_then (fun _ _ => suffix_of_scanPair?) h
  | hour12 => exact suffix_of_scan_then (fun _ _ => suffix_of_scanPair?) h
  | minute => exact suffix_of_scan_then (fun _ _ => suffix_of_scanPair?) h
  | second => exact suffix_of_scan_then (fun _ _ => suffix_of_scanPair?) h
  | half => exact suffix_of_scan_then (fun _ _ => suffix_of_scanOneOf?) h
  | fraction =>
    unfold Field.scan? at h
    dsimp only at h
    split at h
    · next rest =>
      have hrest : u <:+ rest := suffix_of_scan_then (fun _ _ => suffix_of_scanFraction?) h
      exact hrest.trans (List.suffix_cons _ _)
    · obtain ⟨-, rfl⟩ := Prod.mk.inj (Option.some.inj h)
      exact List.suffix_rfl
  | digits count => exact suffix_of_scan_then (fun _ _ => suffix_of_scanFixedFraction?) h
  | offset lenient =>
    have hrest : u <:+ Text.trimStart t := by
      cases lenient with
      | true => exact suffix_of_scan_then (fun _ _ => suffix_of_scanLenientOffset?) h
      | false =>
        refine suffix_of_scan_then ?_ h
        intro v r hv
        exact suffix_of_scanOffset? (fun _ _ => suffix_of_skipColons) hv
    exact hrest.trans (suffix_trimStart t)

/-! ## characters that no number has -/

/-- a character that no number is written with -/
structure IsMark (c : Char) : Prop where
  isDigit : c.isDigit = false
  isBlank : Text.isBlank c = false
  ne_sign : c ≠ '+' ∧ c ≠ '-'
  ne_point : c ≠ '.'

/-- a field that is written as a number -/
def Field.isNumeric : Field → Bool
  | monthName _ | weekdayName _ | half | offset _ => false
  | _ => true

theorem count_of_scanPair? (hc : IsMark c) (h : scanPair? t = some (v, u)) :
    u.count c = t.count c :=
  (count_of_scanNumber? hc.isDigit h).trans (count_trimStart hc.isBlank t)

theorem count_of_scanYear? {y : Int} (hc : IsMark c) (h : scanYear? t = some (y, u)) :
    u.count c = t.count c := by
  rw [← count_trimStart hc.isBlank t]
  unfold scanYear? at h
  split at h
  · next rest htrim =>
    obtain ⟨⟨digits, u'⟩, hdigits, heq⟩ := Option.map_eq_some_iff.mp h
    obtain ⟨-, rfl⟩ := Prod.mk.inj heq
    rw [htrim, List.count_cons_of_ne hc.ne_sign.2.symm]
    exact count_of_scanLongNumber? hc.isDigit hdigits
  · next rest htrim =>
    obtain ⟨⟨digits, u'⟩, hdigits, heq⟩ := Option.map_eq_some_iff.mp h
    obtain ⟨-, rfl⟩ := Prod.mk.inj heq
    rw [htrim, List.count_cons_of_ne hc.ne_sign.1.symm]
    exact count_of_scanLongNumber? hc.isDigit hdigits
  · obtain ⟨⟨digits, u'⟩, hdigits, heq⟩ := Option.map_eq_some_iff.mp h
    obtain ⟨-, rfl⟩ := Prod.mk.inj heq
    exact count_of_scanNumber? hc.isDigit hdigits

/-- A number takes no mark off the text. -/
theorem Field.count_of_scan? {field : Field} {f g : Fields} (hfield : field.isNumeric = true)
    (hc : IsMark c) (h : field.scan? f t = some (g, u)) : u.count c = t.count c := by
  cases field with
  | year =>
    obtain ⟨a, ha, -⟩ := exists_of_scan_then h
    exact count_of_scanYear? hc ha
  | fraction =>
    unfold Field.scan? at h
    dsimp only at h
    split at h
    · next rest =>
      obtain ⟨a, ha, -⟩ := exists_of_scan_then h
      rw [List.count_cons_of_ne hc.ne_point.symm]
      exact count_of_scanFraction? hc.isDigit ha
    · obtain ⟨-, rfl⟩ := Prod.mk.inj (Option.some.inj h)
      rfl
  | digits count =>
    obtain ⟨a, ha, -⟩ := exists_of_scan_then h
    obtain ⟨⟨w, u'⟩, hw, heq⟩ := Option.map_eq_some_iff.mp ha
    obtain ⟨-, rfl⟩ := Prod.mk.inj heq
    exact count_of_scanNumber? hc.isDigit hw
  | monthName _ | weekdayName _ | half | offset _ => cases hfield
  | yearOfCentury | month | day | hour24 | hour12 | minute | second =>
    obtain ⟨a, ha, -⟩ := exists_of_scan_then h
    exact count_of_scanPair? hc ha

end FormatInverse.Calendar
