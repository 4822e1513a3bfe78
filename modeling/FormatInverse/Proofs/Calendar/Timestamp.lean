import FormatInverse.Calendar.Internet
import FormatInverse.Proofs.Calendar.Scan

/-!
# What a timestamp has to have

Date and time of day of a timestamp are three numbers each, with a character between them
(`ScansThree`).  So a timestamp has at least a certain length (`length_of_readTimestamp?`), two
colons, and a third one or a Z in its offset (`marks_of_readTimestamp?`).
-/

namespace FormatInverse.Calendar

variable {c : Char} {f g : Fields} {lo x y z : Nat} {t t₁ t₂ t₃ t₄ u : Text} {v : DateTime}

/-! ## three numbers -/

/-- Three numbers with a character between them are taken off the front of a text. -/
inductive ScansThree (c : Char) (lo : Nat) (t u : Text) : Prop where
  | intro {x y z : Nat} {t₁ t₂ t₃ t₄ : Text}
      (first : scanNumber? lo lo t = some (x, t₁)) (mark : scanChar? c t₁ = some t₂)
      (second : scanNumber? 2 2 t₂ = some (y, t₃)) (mark' : scanChar? c t₃ = some t₄)
      (third : scanNumber? 2 2 t₄ = some (z, u))

theorem ScansThree.length_le (h : ScansThree c lo t u) : u.length + lo + 6 ≤ t.length := by
  obtain ⟨h₁, h₂, h₃, h₄, h₅⟩ := h
  have hfirst := length_of_scanNumber? h₁
  have hchar := length_of_scanChar? h₂
  have hsecond := length_of_scanNumber? h₃
  have hchar' := length_of_scanChar? h₄
  have hthird := length_of_scanNumber? h₅
  omega

theorem ScansThree.suffix (h : ScansThree c lo t u) : u <:+ t := by
  obtain ⟨h₁, h₂, h₃, h₄, h₅⟩ := h
  calc u <:+ _ := suffix_of_scanNumber? h₅
    _ <:+ _ := suffix_of_scanChar? h₄
    _ <:+ _ := suffix_of_scanNumber? h₃
    _ <:+ _ := suffix_of_scanChar? h₂
    _ <:+ t := suffix_of_scanNumber? h₁

theorem ScansThree.count_eq (hc : c.isDigit = false) (h : ScansThree c lo t u) :
    t.count c = u.count c + 2 := by
  obtain ⟨h₁, h₂, h₃, h₄, h₅⟩ := h
  rw [← count_of_scanNumber? hc h₁, count_of_scanChar? h₂, ← count_of_scanNumber? hc h₃,
    count_of_scanChar? h₄, ← count_of_scanNumber? hc h₅]

/-! ## the parts of a timestamp -/

theorem scansThree_of_scanTimestampDate? (h : scanTimestampDate? f t = some (g, u)) :
    ScansThree '-' 4 t u := by
  obtain ⟨⟨year, t₁⟩, h₁, h⟩ := Option.bind_eq_some_iff.mp h
  obtain ⟨t₂, h₂, h⟩ := Option.bind_eq_some_iff.mp h
  obtain ⟨⟨month, t₃⟩, h₃, h⟩ := Option.bind_eq_some_iff.mp h
  obtain ⟨t₄, h₄, h⟩ := Option.bind_eq_some_iff.mp h
  obtain ⟨⟨day, t₅⟩, h₅, h⟩ := Option.bind_eq_some_iff.mp h
  obtain ⟨f₁, -, h⟩ := Option.bind_eq_some_iff.mp h
  obtain ⟨f₂, -, h⟩ := Option.bind_eq_some_iff.mp h
  obtain ⟨f₃, -, h⟩ := Option.bind_eq_some_iff.mp h
  obtain ⟨-, rfl⟩ := Prod.mk.inj (Option.some.inj h)
  exact ⟨h₁, h₂, h₃, h₄, h₅⟩

theorem scansThree_of_scanTimestampTime? (h : scanTimestampTime? f t = some (g, u)) :
    ScansThree ':' 2 t u := by
  obtain ⟨⟨hour, t₁⟩, h₁, h⟩ := Option.bind_eq_some_iff.mp h
  obtain ⟨t₂, h₂, h⟩ := Option.bind_eq_some_iff.mp h
  obtain ⟨⟨minute, t₃⟩, h₃, h⟩ := Option.bind_eq_some_iff.mp h
  obtain ⟨t₄, h₄, h⟩ := Option.bind_eq_some_iff.mp h
  obtain ⟨⟨second, t₅⟩, h₅, h⟩ := Option.bind_eq_some_iff.mp h
  obtain ⟨f₁, -, h⟩ := Option.bind_eq_some_iff.mp h
  obtain ⟨f₂, -, h⟩ := Option.bind_eq_some_iff.mp h
  obtain ⟨f₃, -, h⟩ := Option.bind_eq_some_iff.mp h
  obtain ⟨-, rfl⟩ := Prod.mk.inj (Option.some.inj h)
  exact ⟨h₁, h₂, h₃, h₄, h₅⟩

theorem exists_cons_of_scanDateEnd? (h : scanDateEnd? t = some u) : ∃ c, t = c :: u := by
  cases t with
  | nil => cases h
  | cons c t =>
    obtain ⟨-, hu⟩ := Option.ite_none_right_eq_some.mp h
    cases hu
    exact ⟨c, rfl⟩

theorem suffix_of_scanTimestampFraction? (h : scanTimestampFraction? f t = some (g, u)) :
    u <:+ t := by
  unfold scanTimestampFraction? at h
  split at h
  · next rest =>
    have hrest : u <:+ rest := suffix_of_scan_then (fun _ _ => suffix_of_scanFraction?) h
    exact hrest.trans (List.suffix_cons _ _)
  · obtain ⟨-, rfl⟩ := Prod.mk.inj (Option.some.inj h)
    exact List.suffix_rfl

/-- An offset is a Z or has a colon. -/
theorem marks_of_scanTimestampOffset? (h : scanTimestampOffset? f t = some (g, u)) :
    ':' ∈ t ∨ 'Z' ∈ t ∨ 'z' ∈ t := by
  unfold scanTimestampOffset? at h
  split at h
  · next rest hzulu =>
    cases t with
    | nil => cases hzulu
    | cons c t =>
      obtain ⟨hc, -⟩ := Option.ite_none_right_eq_some.mp hzulu
      rcases hc with rfl | rfl <;> simp
  · obtain ⟨offset, hoffset, -⟩ := exists_of_scan_then h
    obtain ⟨⟨sign, t₁⟩, h₁, h⟩ := Option.bind_eq_some_iff.mp hoffset
    obtain ⟨⟨hours, t₂⟩, h₂, h⟩ := Option.bind_eq_some_iff.mp h
    obtain ⟨t₃, h₃, -⟩ := Option.bind_eq_some_iff.mp h
    have hcolon : ':' ∈ t₂ := List.count_pos_iff.mp (by rw [count_of_scanChar? h₃]; omega)
    exact Or.inl (((suffix_of_scanNumber? h₂).trans (suffix_of_scanSign? h₁)).subset hcolon)

/-! ## timestamps -/

/-- The parts of a timestamp, one after the other. -/
theorem exists_parts_of_readTimestamp? (h : readTimestamp? t = some v) :
    ∃ (c : Char) (t₁ t₂ t₃ : Text), ScansThree '-' 4 t (c :: t₁) ∧ ScansThree ':' 2 t₁ t₂ ∧
      t₃ <:+ t₂ ∧ (':' ∈ t₃ ∨ 'Z' ∈ t₃ ∨ 'z' ∈ t₃) := by
  obtain ⟨⟨f₁, t₁⟩, h₁, h⟩ := Option.bind_eq_some_iff.mp h
  obtain ⟨t₂, h₂, h⟩ := Option.bind_eq_some_iff.mp h
  obtain ⟨⟨f₃, t₃⟩, h₃, h⟩ := Option.bind_eq_some_iff.mp h
  obtain ⟨⟨f₄, t₄⟩, h₄, h⟩ := Option.bind_eq_some_iff.mp h
  obtain ⟨⟨f₅, t₅⟩, h₅, -⟩ := Option.bind_eq_some_iff.mp h
  obtain ⟨c, rfl⟩ := exists_cons_of_scanDateEnd? h₂
  exact ⟨c, t₂, t₃, t₄, scansThree_of_scanTimestampDate? h₁, scansThree_of_scanTimestampTime? h₃,
    suffix_of_scanTimestampFraction? h₄, marks_of_scanTimestampOffset? h₅⟩

/-- A timestamp has the nineteen characters of date and time, and an offset. -/
theorem length_of_readTimestamp? (h : readTimestamp? t = some v) : 20 ≤ t.length := by
  obtain ⟨c, t₁, t₂, t₃, hdate, htime, hfraction, hoffset⟩ := exists_parts_of_readTimestamp? h
  have hdate' := hdate.length_le
  have htime' := htime.length_le
  have hfraction' := hfraction.length_le
  have hoffset' : 0 < t₃.length := by
    rcases hoffset with hmem | hmem | hmem <;> exact List.length_pos_of_mem hmem
  rw [List.length_cons] at hdate'
  omega

/-- A timestamp has two colons in its time of day, and a third one or a Z in its offset. -/
theorem marks_of_readTimestamp? (h : readTimestamp? t = some v) :
    3 ≤ t.count ':' ∨ 'Z' ∈ t ∨ 'z' ∈ t := by
  obtain ⟨c, t₁, t₂, t₃, hdate, htime, hfraction, hoffset⟩ := exists_parts_of_readTimestamp? h
  have hrest : t₁ <:+ t := (List.suffix_cons c t₁).trans hdate.suffix
  have hend : t₃ <:+ t := hfraction.trans (htime.suffix.trans hrest)
  rcases hoffset with hcolon | hmem | hmem
  · refine Or.inl ?_
    calc 3 ≤ t₃.count ':' + 2 := Nat.add_le_add_right (List.count_pos_iff.mpr hcolon) 2
      _ ≤ t₂.count ':' + 2 := Nat.add_le_add_right (hfraction.sublist.count_le ':') 2
      _ = t₁.count ':' := (htime.count_eq (by decide)).symm
      _ ≤ t.count ':' := hrest.sublist.count_le ':'
  · exact Or.inr (Or.inl (hend.subset hmem))
  · exact Or.inr (Or.inr (hend.subset hmem))

end FormatInverse.Calendar
