import FormatInverse.Proofs.Number.Agreement

/-!
# Integers denote what is written

A text is read as an integer of 64 bits if and only if it is a sign or none and digits, and 64 bits
hold the number.  The culture has no say in it: what is written decides (`parseInt64?_of_written`).

* `int64?_eq_some_iff`   the numeral of an integer is read as the number that it stands for;
* `parseInt64?_denotes`  the same for a whole text, with the first numbers that are out of reach.
-/

namespace FormatInverse.Number

variable {k : Culture} {raw t : Text} {s : Sign} {n : Int64}

/-- the number that a sign and digits stand for in the decimal system -/
def signedNumber (s : Sign) (digits : Text) : Int :=
  s.factor * (Nat.ofDigits 10 (digits.reverse.map Text.digitValue) : Nat)

/-- A text is an integer but for white space around it: a sign or none, and digits. -/
structure IsInteger (raw : Text) (s : Sign) (digits : Text) : Prop where
  text : Text.trim raw = s.text ++ digits
  ne_nil : digits ≠ []
  isDigit : ∀ c ∈ digits, c.isDigit = true

theorem signedNumber_eq (s : Sign) (t : Text) : signedNumber s t = s.factor * Text.value t := by
  rw [signedNumber, Text.value_eq_ofDigits]

theorem value_zeros (z : Nat) : Text.value (List.replicate z '0') = 0 := by
  induction z with
  | zero => rfl
  | succ z ih =>
    rw [List.replicate_succ, Text.value_cons, ih]
    simp [Text.digitValue]

theorem signedNumber_zeros (s : Sign) (z : Nat) (t : Text) :
    signedNumber s (List.replicate z '0' ++ t) = signedNumber s t := by
  rw [signedNumber_eq, signedNumber_eq, Text.value_append_text, value_zeros, Nat.zero_mul,
    Nat.zero_add]

/-- An integer with zeros in front of its digits. -/
theorem IsInteger.zeros {raw' : Text} (h : IsInteger raw s t) {z : Nat}
    (htext : Text.trim raw' = s.text ++ (List.replicate z '0' ++ t)) :
    IsInteger raw' s (List.replicate z '0' ++ t) := by
  refine ⟨htext, by simp [h.ne_nil], ?_⟩
  intro c hc
  rcases List.mem_append.mp hc with hc | hc
  · rw [List.eq_of_mem_replicate hc]
    rfl
  · exact h.isDigit c hc

/-! ## the numeral -/

/-- The numeral of an integer is read as the number that it stands for, if 64 bits hold it. -/
theorem int64?_eq_some_iff (ht : ∀ c ∈ t, c.isDigit = true) :
    int64? (s.normalText ++ t) = some n ↔ n.toInt = signedNumber s t := by
  constructor
  · intro h
    rw [signedNumber_eq]
    exact int64?_eq_some ht h
  · intro h
    unfold int64?
    rw [splitSign_normalText s (not_isSign_of_digits ht)]
    dsimp only
    rw [s.factor_mul, ← signedNumber_eq, ← h, Int64.ofInt_toInt]
    exact if_pos ⟨n.le_toInt, Int.le_of_lt_add_one n.toInt_lt⟩

/-- Numerals of the same number are read alike. -/
theorem int64?_congr {t' : Text} (ht : ∀ c ∈ t, c.isDigit = true)
    (ht' : ∀ c ∈ t', c.isDigit = true) (h : signedNumber s t' = signedNumber s t) :
    int64? (s.normalText ++ t') = int64? (s.normalText ++ t) := by
  apply Option.ext
  intro n
  rw [int64?_eq_some_iff ht, int64?_eq_some_iff ht', h]

/-! ## the text -/

theorem parseInt64?_of_written (h : IsInteger raw s t) :
    parseInt64? k raw = int64? (s.normalText ++ t) := by
  have hnormal : normal? k .integer raw = some (s.normalText ++ t) :=
    normal?_integer_eq_some_iff.mpr ⟨s, t, h.text, rfl, h.isDigit, h.ne_nil⟩
  unfold parseInt64?
  rw [hnormal, Option.bind_some]

theorem exists_written_of_parseInt64? (h : parseInt64? k raw = some n) :
    ∃ s t, IsInteger raw s t := by
  unfold parseInt64? at h
  obtain ⟨u, hu, -⟩ := Option.bind_eq_some_iff.mp h
  obtain ⟨s, t, htext, -, hdigits, hne⟩ := normal?_integer_eq_some_iff.mp hu
  exact ⟨s, t, htext, hne, hdigits⟩

/-- Whatever the culture, the same integers are read. -/
theorem parseInt64?_culture (k k' : Culture) (raw : Text) :
    parseInt64? k' raw = parseInt64? k raw := by
  by_cases h : ∃ s t, IsInteger raw s t
  · obtain ⟨s, t, hst⟩ := h
    rw [parseInt64?_of_written hst, parseInt64?_of_written hst]
  · have hnone : ∀ j, parseInt64? j raw = none := by
      intro j
      apply Option.eq_none_iff_forall_ne_some.mpr
      intro n hn
      exact h (exists_written_of_parseInt64? hn)
    rw [hnone k, hnone k']

/-- A text is read as an integer of 64 bits if and only if it is one and 64 bits hold the number,
and then as that number.  The culture does not matter, the least number is read and the one above
the largest is not, and zeros in front change nothing. -/
theorem parseInt64?_denotes (k : Culture) (raw : Text) :
    (∀ n, parseInt64? k raw = some n ↔
        ∃ s t, IsInteger raw s t ∧ -2 ^ 63 ≤ signedNumber s t ∧ signedNumber s t ≤ 2 ^ 63 - 1 ∧
          n.toInt = signedNumber s t) ∧
      (∀ k', parseInt64? k' raw = parseInt64? k raw) ∧
      (∀ s t, IsInteger raw s t →
        (signedNumber s t = -2 ^ 63 → parseInt64? k raw = some Int64.minValue) ∧
        (signedNumber s t = 2 ^ 63 → parseInt64? k raw = none) ∧
        ∀ z raw', Text.trim raw' = s.text ++ (List.replicate z '0' ++ t) →
          parseInt64? k raw' = parseInt64? k raw) := by
  refine ⟨?_, fun k' => parseInt64?_culture k k' raw, ?_⟩
  · intro n
    constructor
    · intro hn
      obtain ⟨s, t, h⟩ := exists_written_of_parseInt64? hn
      rw [parseInt64?_of_written h] at hn
      have hvalue := (int64?_eq_some_iff h.isDigit).mp hn
      have hlow := n.le_toInt
      have hhigh := n.toInt_lt
      exact ⟨s, t, h, by omega, by omega, hvalue⟩
    · intro hn
      obtain ⟨s, t, h, -, -, hvalue⟩ := hn
      rw [parseInt64?_of_written h]
      exact (int64?_eq_some_iff h.isDigit).mpr hvalue
  · intro s t h
    rw [parseInt64?_of_written h]
    refine ⟨?_, ?_, ?_⟩
    · intro hleast
      apply (int64?_eq_some_iff h.isDigit).mpr
      rw [hleast]
      rfl
    · intro hbeyond
      apply Option.eq_none_iff_forall_ne_some.mpr
      intro n hn
      have hvalue := (int64?_eq_some_iff h.isDigit).mp hn
      have hhigh := n.toInt_lt
      omega
    · intro z raw' htext
      have h' := h.zeros htext
      rw [parseInt64?_of_written h']
      exact int64?_congr h.isDigit h'.isDigit (signedNumber_zeros s z t)

theorem parseInt64?_denotes_least :
    IsInteger " -9223372036854775808\n".toList .minus "9223372036854775808".toList ∧
      parseInt64? .ptBR " -9223372036854775808\n".toList = some Int64.minValue ∧
      parseInt64? .ptBR "-009223372036854775808".toList = some Int64.minValue := by
  have h : IsInteger " -9223372036854775808\n".toList .minus "9223372036854775808".toList :=
    ⟨by decide, by decide, by simp⟩
  obtain ⟨-, -, hwritten⟩ := parseInt64?_denotes .ptBR " -9223372036854775808\n".toList
  obtain ⟨hleast, -, hzeros⟩ := hwritten .minus _ h
  have hn := hleast (by decide)
  exact ⟨h, hn, (hzeros 2 "-009223372036854775808".toList (by decide)).trans hn⟩

end FormatInverse.Number
