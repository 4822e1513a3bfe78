import FormatInverse.Proofs.Number.Decimal

/-!
# Integers, decimals and floating-point numbers agree

What one style of numbers reads, a style that allows more reads in the same way (`normal?_of_le`).
So an integer has one normal form for `parseInt64?` and `parseDecimal?`, and a decimal has one for
`parseDecimal?` and `parseBinary64?`; what is left are the ranges.  An integer of 64 bits fits into
a mantissa, and a number that rounds to a decimal is far below the largest binary64
(`nearestScaled_lt_bound`).
-/

namespace FormatInverse

/-! ## the range of binary64 -/

namespace Binary64

theorem roundHalfEven_le (n d : Nat) : roundHalfEven n d ≤ n / d + 1 := by
  unfold roundHalfEven
  split_ifs
  · omega
  · omega
  · omega

/-- A significand has 53 bits, or it is rounded up to the next power of two. -/
theorem roundHalfEven_le_two_pow (n d : Nat) :
    roundHalfEven n (d * 2 ^ ((n / d).log2 - 52)) ≤ 2 ^ 53 := by
  have hlt : n / d / 2 ^ ((n / d).log2 - 52) < 2 ^ 53 := by
    apply Nat.div_lt_of_lt_mul
    rw [← pow_add]
    calc n / d < 2 ^ ((n / d).log2 + 1) := Nat.lt_log2_self
      _ ≤ 2 ^ ((n / d).log2 - 52 + 53) := Nat.pow_le_pow_right (by norm_num) (by omega)
  have hle := roundHalfEven_le n (d * 2 ^ ((n / d).log2 - 52))
  rw [← Nat.div_div_eq_div_mul] at hle
  omega

theorem log2_div_le {n d b p : Nat} (h : n < 2 ^ b * d) : (n * 2 ^ p / d).log2 ≤ b + p := by
  by_cases hzero : n * 2 ^ p / d = 0
  · rw [hzero, Nat.log2_zero]
    exact Nat.zero_le _
  · have hlt : n * 2 ^ p / d < 2 ^ (b + p) := by
      apply Nat.div_lt_of_lt_mul
      rw [pow_add, ← Nat.mul_assoc, Nat.mul_comm d]
      exact Nat.mul_lt_mul_of_pos_right h (by positivity)
    exact Nat.le_of_lt ((Nat.log2_lt hzero).mpr hlt)

/-- A number below 2^1022 is nearest to a finite one. -/
theorem nearest_lt_bound {n d b : Nat} (hb : b ≤ 1022) (h : n < 2 ^ b * d) :
    nearest n d < bound := by
  unfold nearest bound
  -- the power is too large to be computed, so its exponent is made a variable
  generalize hp : (1074 : Nat) = p
  have hlog := log2_div_le (p := p) h
  have hround := roundHalfEven_le_two_pow (n * 2 ^ p) d
  show ((n * 2 ^ p / d).log2 - 52) * 2 ^ 52
      + roundHalfEven (n * 2 ^ p) (d * 2 ^ ((n * 2 ^ p / d).log2 - 52)) < 2047 * 2 ^ 52
  omega

theorem nearestScaled_lt_bound {c len b : Nat} (hb : b ≤ 1022) (h : c < 2 ^ b * 10 ^ len) :
    nearestScaled c (-len) < bound := by
  have hpos : 0 < bound := by decide
  unfold nearestScaled
  split_ifs with hc hlarge htiny hlen
  · exact hpos
  · omega
  · exact hpos
  · have hzero : len = 0 := by omega
    rw [hzero, pow_zero] at h
    apply nearest_lt_bound hb
    rw [hzero]
    show c * 1 < 2 ^ b * 1
    rw [Nat.mul_one]
    exact h
  · apply nearest_lt_bound hb
    rw [Int.neg_neg, Int.toNat_natCast]
    exact h

end Binary64

namespace Number

variable {k : Culture} {style style' : Style} {met : Met} {t u raw : Text}

/-! ## styles -/

/-- What is read without exponents is read in the same way where exponents are allowed, and
separators if they were. -/
theorem body?_of_le (hstyle : style ≠ .float) (hle : style ≠ .integer → style' ≠ .integer)
    (h : body? k style met t = some u) : body? k style' met t = some u := by
  have hrun := run_of_body? h
  clear h
  induction hrun with
  | done hdigit => rw [body?_nil, if_pos hdigit]
  | digit hc _ ih =>
    rw [body?_digit hc, ih]
    rfl
  | point hc hsep hne hfraction hexponent _ ih =>
    rw [body?_decimalSeparator (hle hne) hfraction hexponent hc hsep, ih]
    rfl
  | group hc hother hsep hne hdigit hfraction hexponent _ ih =>
    rw [body?_groupSeparator (hle hne) hfraction hexponent hdigit hc hother hsep]
    exact ih
  | exponent _ _ hfloat => exact absurd hfloat hstyle

theorem normal?_of_le (hstyle : style ≠ .float) (hle : style ≠ .integer → style' ≠ .integer)
    (h : normal? k style raw = some u) : normal? k style' raw = some u := by
  unfold normal? at h ⊢
  obtain ⟨s, rest, v, htext, hu, hsign, hv⟩ := signed?_eq_some_iff.mp h
  exact signed?_eq_some_iff.mpr ⟨s, rest, v, htext, hu, hsign, body?_of_le hstyle hle hv⟩

/-! ## integers -/

theorem not_isSign_of_digits (ht : ∀ c ∈ t, c.isDigit = true) :
    ∀ c ∈ t.head?, isSign c = false := by
  intro c hc
  exact isSign_of_isDigit (ht c (List.mem_of_mem_head? hc))

/-- An integer is a sign and digits. -/
theorem normal?_integer_eq_some_iff :
    normal? k .integer raw = some u ↔
      ∃ (s : Sign) (digits : Text), Text.trim raw = s.text ++ digits ∧ u = s.normalText ++ digits ∧
        (∀ c ∈ digits, c.isDigit = true) ∧ digits ≠ [] := by
  have hstyle : Style.integer ≠ .float := by decide
  unfold normal?
  rw [signed?_eq_some_iff]
  constructor
  · intro h
    obtain ⟨s, rest, v, htext, hu, -, hv⟩ := h
    obtain ⟨rfl, hdigits, hne⟩ := (body?_eq_some_iff_of_digits hstyle (Or.inl rfl)).mp hv
    have hne' : v ≠ [] := hne.resolve_left Bool.false_ne_true
    exact ⟨s, v, htext, hu, hdigits, hne'⟩
  · intro h
    obtain ⟨s, digits, htext, hu, hdigits, hne⟩ := h
    refine ⟨s, digits, digits, htext, hu, ?_, ?_⟩
    · intro _
      exact not_isSign_of_digits hdigits
    · exact (body?_eq_some_iff_of_digits hstyle (Or.inl rfl)).mpr ⟨rfl, hdigits, Or.inr hne⟩

theorem int64?_eq_some {s : Sign} {n : Int64} (ht : ∀ c ∈ t, c.isDigit = true)
    (h : int64? (s.normalText ++ t) = some n) : n.toInt = s.factor * Text.value t := by
  unfold int64? at h
  rw [splitSign_normalText s (not_isSign_of_digits ht)] at h
  dsimp only at h
  rw [s.factor_mul] at h
  split at h
  · next hrange =>
    obtain rfl := Option.some.inj h
    exact Int64.toInt_ofInt_of_le hrange.1 (Int.lt_add_one_of_le hrange.2)
  · cases h

/-- The number of an integer of 64 bits is below the bound of a mantissa. -/
theorem value_lt_bound_of_int64? {s : Sign} {n : Int64} (ht : ∀ c ∈ t, c.isDigit = true)
    (h : int64? (s.normalText ++ t) = some n) : Text.value t < Decimal.bound := by
  have hvalue : n.toInt.natAbs = Text.value t := by
    rw [int64?_eq_some ht h, Int.natAbs_mul, s.natAbs_factor, Nat.one_mul, Int.natAbs_natCast]
  have hlow := n.le_toInt
  have hhigh := n.toInt_lt
  have hbound : 2 ^ 63 < Decimal.bound := by decide
  omega

/-- An integer as it is read as a decimal. -/
theorem exists_decimal_of_parseInt64? {n : Int64} (h : parseInt64? k raw = some n) :
    ∃ d, parseDecimal? k raw = some d ∧ d.coefficient = n.toInt ∧ d.scale = 0 := by
  unfold parseInt64? at h
  obtain ⟨u, hu, hn⟩ := Option.bind_eq_some_iff.mp h
  obtain ⟨s, digits, -, rfl, hdigits, hne⟩ := normal?_integer_eq_some_iff.mp hu
  have hnormal : normal? k .decimal raw = some (s.normalText ++ digits) :=
    normal?_of_le (by decide) (fun hfalse => absurd rfl hfalse) hu
  have hparts : parts? (s.normalText ++ (digits ++ pointed '.' none))
      = some ⟨s.negative, digits, [], 0⟩ :=
    parts?_normal s hdigits (fun f hf => by cases hf) (Or.inl hne)
  rw [pointed, List.append_nil] at hparts
  have hdecimal : Decimal.ofDigits? s.negative digits []
      = some ⟨s.negative && Text.value digits != 0, Text.value digits, 0⟩ := by
    unfold Decimal.ofDigits?
    rw [if_pos (value_lt_bound_of_int64? hdigits hn)]
    rfl
  obtain ⟨-, -, hcoefficient⟩ := Decimal.ofDigits?_inv s hdecimal
  refine ⟨_, ?_, hcoefficient.trans (int64?_eq_some hdigits hn).symm, rfl⟩
  unfold parseDecimal? Decimal.ofNormal?
  rw [hnormal, Option.bind_some, hparts]
  exact hdecimal

/-! ## decimals -/

theorem Figure.coefficient_lt (f : Figure k) (h : Text.value f.wholeDigits < Decimal.bound) :
    f.coefficient < 2 ^ 96 * 10 ^ f.fractionDigits.length := by
  have hfraction := Text.value_lt f.fractionDigits_isDigit
  rw [Figure.coefficient_eq]
  calc Text.value f.wholeDigits * 10 ^ f.fractionDigits.length + Text.value f.fractionDigits
      < (Text.value f.wholeDigits + 1) * 10 ^ f.fractionDigits.length := by
        rw [Nat.add_mul, Nat.one_mul]
        exact Nat.add_lt_add_left hfraction _
    _ ≤ 2 ^ 96 * 10 ^ f.fractionDigits.length := Nat.mul_le_mul_right _ h

/-- A decimal as it is read as a floating-point number. -/
theorem exists_binary64_of_parseDecimal? {d : Decimal} (h : parseDecimal? k raw = some d) :
    ∃ x, parseBinary64? k raw = some x := by
  obtain ⟨f, -, hf, hd⟩ := exists_figure_of_parseDecimal? h
  obtain ⟨hwhole, -, -⟩ := Decimal.ofDigits?_inv f.sign hd
  have hnormal : normal? k .float raw = some f.normalText :=
    normal?_of_le (by decide) (fun _ => by decide) hf
  have hcoefficient : Text.value (f.wholeDigits ++ f.fractionDigits) = f.coefficient := by
    rw [Figure.coefficient_eq, Text.value_append_text]
  have hfinite := Binary64.nearestScaled_lt_bound (by norm_num) (f.coefficient_lt hwhole)
  rw [← hcoefficient, ← Int.zero_sub] at hfinite
  unfold parseBinary64? Binary64.ofNormal?
  rw [hnormal, Option.bind_some, f.parts?_normalText]
  exact ⟨_, dif_pos hfinite⟩

/-- What is read as an integer is read as a decimal without fraction of the same value, and what is
read as a decimal is read as a finite floating-point number. -/
theorem parsers_agree (k : Culture) (raw : Text) :
    (∀ n, parseInt64? k raw = some n →
        ∃ d, parseDecimal? k raw = some d ∧ d.coefficient = n.toInt ∧ d.scale = 0) ∧
      (∀ d, parseDecimal? k raw = some d → ∃ x, parseBinary64? k raw = some x) := by
  constructor
  · intro n hn
    exact exists_decimal_of_parseInt64? hn
  · intro d hd
    exact exists_binary64_of_parseDecimal? hd

/-- The binary64 is `-7`: the sign bit, the exponent `2` and the significand `7 / 4`. -/
theorem parsers_agree_leadingZeros :
    ∃ d x, parseInt64? .ptBR " -007 ".toList = some (-7) ∧
      parseDecimal? .ptBR " -007 ".toList = some d ∧ d.coefficient = -7 ∧ d.scale = 0 ∧
      parseBinary64? .ptBR " -007 ".toList = some x ∧ x.bits = 0xC01C000000000000 := by
  have hn : parseInt64? .ptBR " -007 ".toList = some (-7) := by decide
  have hbits : (parseBinary64? .ptBR " -007 ".toList).map Binary64.bits
      = some 0xC01C000000000000 := by decide +kernel
  obtain ⟨hdecimal, hfloat⟩ := parsers_agree .ptBR " -007 ".toList
  obtain ⟨d, hd, hcoefficient, hscale⟩ := hdecimal (-7) hn
  obtain ⟨x, hx⟩ := hfloat d hd
  rw [hx, Option.map_some, Option.some.injEq] at hbits
  exact ⟨d, x, hn, hd, hcoefficient, hscale, hx, hbits⟩

end Number

end FormatInverse
