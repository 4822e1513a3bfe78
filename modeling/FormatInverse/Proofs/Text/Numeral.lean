import Mathlib
import FormatInverse.Text.Numeral

/-!
# The numbers that digits denote

`value` is the number of a run of digits in the decimal system (`value_eq_ofDigits`), so it is bounded
by their number (`value_lt`).  `decimal` writes a number without a zero in front, and `padded` with a
least number of digits; a number that has no more digits than that is written with exactly so many.
`value` reads both back.
-/

namespace FormatInverse.Text

variable {c : Char} {s t : Text} {width n : Nat}

/-! ## values -/

/-- A run of digits denotes its number in the decimal system. -/
theorem value_eq_ofDigits (t : Text) : value t = Nat.ofDigits 10 (t.reverse.map digitValue) := by
  induction t using List.reverseRecOn with
  | nil => rfl
  | append_singleton t c ih =>
    rw [value_append, ih, List.reverse_append, List.reverse_singleton, List.singleton_append,
      List.map_cons, Nat.ofDigits_cons, Nat.add_comm]

theorem digitValue_lt_ten (hc : c.isDigit = true) : digitValue c < 10 := by
  have h := Char.isDigit_iff_toNat.mp hc
  have h0 : '0'.toNat = 48 := rfl
  have h9 : '9'.toNat = 57 := rfl
  unfold digitValue
  omega

theorem value_append_text (s t : Text) : value (s ++ t) = value s * 10 ^ t.length + value t := by
  rw [value_eq_ofDigits, value_eq_ofDigits, value_eq_ofDigits, List.reverse_append, List.map_append,
    Nat.ofDigits_append, List.length_map, List.length_reverse]
  ring

theorem value_cons (c : Char) (t : Text) :
    value (c :: t) = digitValue c * 10 ^ t.length + value t := by
  have hc : value [c] = digitValue c := by simp [value]
  rw [← List.singleton_append, value_append_text, hc]

theorem value_lt (ht : ∀ c ∈ t, c.isDigit = true) : value t < 10 ^ t.length := by
  rw [value_eq_ofDigits]
  have hdigits : ∀ d ∈ t.reverse.map digitValue, d < 10 := by
    intro d hd
    obtain ⟨c, hc, rfl⟩ := List.mem_map.mp hd
    exact digitValue_lt_ten (ht c (List.mem_reverse.mp hc))
  have h := Nat.ofDigits_lt_base_pow_length (by norm_num) hdigits
  rw [List.length_map, List.length_reverse] at h
  exact h

/-! ## no zero in front -/

theorem isDigit_of_mem_decimal (hc : c ∈ decimal n) : c.isDigit = true :=
  Nat.isDigit_of_mem_toDigits (by omega) (by omega) hc

theorem decimal_ne_nil (n : Nat) : decimal n ≠ [] := Nat.toDigits_ne_nil

theorem value_decimal (n : Nat) : value (decimal n) = n := by
  have hvalue : value (decimal n) = Nat.ofDigitChars 10 (decimal n) 0 :=
    Nat.ofDigitChars_eq_foldl.symm
  rw [hvalue]
  exact Nat.ofDigitChars_ten_toDigits

/-- Only zero itself is written with a zero in front. -/
theorem eq_nil_of_decimal (h : decimal n = '0' :: t) : t = [] := by
  by_contra hne
  have ht : ∀ c ∈ t, c.isDigit = true := fun c hc =>
    isDigit_of_mem_decimal (by rw [h]; exact List.mem_cons_of_mem _ hc)
  have hzero : digitValue '0' = 0 := rfl
  have hvalue : value t = n := by
    rw [← value_decimal n, h, value_cons, hzero, Nat.zero_mul, Nat.zero_add]
  -- so the number has fewer digits than are written
  have hle : (decimal n).length ≤ t.length :=
    (Nat.length_toDigits_le_iff (by omega) (List.length_pos_iff.mpr hne)).mpr (hvalue ▸ value_lt ht)
  rw [h, List.length_cons] at hle
  omega

/-! ## zeros in front -/

theorem padded_eq_leftpad (width n : Nat) : padded width n = (decimal n).leftpad width '0' := rfl

theorem isDigit_of_mem_padded (hc : c ∈ padded width n) : c.isDigit = true := by
  rcases List.mem_append.mp hc with hc | hc
  · rw [List.eq_of_mem_replicate hc]
    rfl
  · exact isDigit_of_mem_decimal hc

theorem length_padded (hwidth : 0 < width) (hn : n < 10 ^ width) :
    (padded width n).length = width := by
  have hle : (decimal n).length ≤ width := (Nat.length_toDigits_le_iff (by omega) hwidth).mpr hn
  rw [padded_eq_leftpad, List.length_leftpad, Nat.max_eq_left hle]

theorem value_padded (width n : Nat) : value (padded width n) = n := by
  have hvalue : ∀ t, value t = Nat.ofDigitChars 10 t 0 := fun _ => Nat.ofDigitChars_eq_foldl.symm
  rw [hvalue, padded, Nat.ofDigitChars_append, Nat.ofDigitChars_replicate_zero, Nat.mul_zero]
  exact Nat.ofDigitChars_ten_toDigits

end FormatInverse.Text
