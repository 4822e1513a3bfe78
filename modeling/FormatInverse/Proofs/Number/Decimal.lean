import Mathlib
import FormatInverse.Number.Parse
import FormatInverse.Proofs.Number.Figure

/-!
# Decimals denote what is written

The exact value of a number as a culture writes it is `Figure.value`: its digits as one integer, by
the power of ten that belongs to the number of its fraction digits.  `parseDecimal?_denotes` compares
the decimal that is read with it.

Reading a fraction keeps an invariant: the digits taken so far and the digits still to come stand for
one `amount`, which a digit taken does not change (`amount_cons`).  So only the last step, where the
digits from one on are dropped, has an error (`round?_error`).
-/

namespace FormatInverse

/-! ## digits behind a point -/

namespace Text

variable {c : Char} {s t : Text}

/-- the number that digits denote behind a point -/
def fractional (t : Text) : ℚ := value t / 10 ^ t.length

theorem fractional_nil : fractional [] = 0 := by
  simp [fractional, value]

theorem fractional_cons (c : Char) (t : Text) :
    fractional (c :: t) = (digitValue c + fractional t) / 10 := by
  unfold fractional
  rw [value_cons, List.length_cons, pow_succ]
  push_cast
  field_simp

theorem fractional_nonneg (t : Text) : 0 ≤ fractional t := by
  unfold fractional
  positivity

theorem fractional_lt_one (ht : ∀ c ∈ t, c.isDigit = true) : fractional t < 1 := by
  unfold fractional
  rw [div_lt_one (by positivity)]
  exact_mod_cast value_lt ht

/-- Whether the digits behind a point reach a half is seen from the first of them. -/
theorem fractional_cons_lt_half (ht : ∀ c ∈ t, c.isDigit = true) :
    fractional (c :: t) < 1 / 2 ↔ digitValue c < 5 := by
  rw [fractional_cons]
  have h0 := fractional_nonneg t
  have h1 := fractional_lt_one ht
  constructor
  · intro h
    by_contra hc
    have hc' : (5 : ℚ) ≤ digitValue c := by exact_mod_cast Nat.le_of_not_lt hc
    linarith
  · intro hc
    have hc' : (digitValue c : ℚ) ≤ 4 := by exact_mod_cast Nat.le_of_lt_succ hc
    linarith

theorem half_le_fractional_cons (ht : ∀ c ∈ t, c.isDigit = true) :
    1 / 2 ≤ fractional (c :: t) ↔ 5 ≤ digitValue c := by
  rw [← not_lt, fractional_cons_lt_half ht, not_lt]

end Text

/-! ## reading a fraction -/

namespace Decimal

variable {mantissa scale m s : Nat} {c : Char} {t : Text}

theorem bound_eq : bound = 2 ^ 96 := rfl

/-- the number whose digits form `mantissa` up to `scale` digits behind the point and go on with `t` -/
def amount (mantissa scale : Nat) (t : Text) : ℚ := (mantissa + Text.fractional t) / 10 ^ scale

theorem amount_nil (mantissa scale : Nat) : amount mantissa scale [] = mantissa / 10 ^ scale := by
  rw [amount, Text.fractional_nil, add_zero]

/-- A digit taken into the mantissa changes nothing. -/
theorem amount_cons (mantissa scale : Nat) (c : Char) (t : Text) :
    amount mantissa scale (c :: t) = amount (10 * mantissa + Text.digitValue c) (scale + 1) t := by
  unfold amount
  rw [Text.fractional_cons, pow_succ]
  push_cast
  field_simp
  ring

/-- Digits below a half are dropped, others are made up for by one more; where that one has no room
the last place is given up as well. -/
theorem round?_cases (hm : mantissa < bound) (h : round? mantissa scale c = some (m, s)) :
    (Text.digitValue c < 5 ∧ m = mantissa ∧ s = scale) ∨
    (5 ≤ Text.digitValue c ∧ m = mantissa + 1 ∧ s = scale) ∨
    (5 ≤ Text.digitValue c ∧ 10 * m = mantissa + 5 ∧ scale = s + 1) := by
  unfold round? at h
  split at h
  · next hc =>
    cases h
    exact Or.inl ⟨hc, rfl, rfl⟩
  · next hc =>
    right
    split at h
    · cases h
      exact Or.inl ⟨Nat.le_of_not_lt hc, rfl, rfl⟩
    · next hfull =>
      split at h
      · cases h
      · next hscale =>
        have hmax : mantissa + 1 = bound := Nat.le_antisymm hm (Nat.le_of_not_lt hfull)
        -- 2^96 ends in the digit six
        have hbound : (bound + 4) % 10 = 0 := by decide
        rw [← hmax] at hbound
        obtain ⟨rfl, rfl⟩ := Prod.mk.inj (Option.some.inj h)
        refine Or.inr ⟨Nat.le_of_not_lt hc, ?_, ?_⟩
        · omega
        · omega

theorem abs_div_pow_le {x : ℚ} (hlow : -(1 / 2) ≤ x) (hhigh : x ≤ 1 / 2) (s : Nat) :
    |x / 10 ^ s| ≤ 1 / 2 / 10 ^ s := by
  rw [abs_div, abs_of_pos (by positivity : (0 : ℚ) < 10 ^ s)]
  exact div_le_div_of_nonneg_right (abs_le.mpr ⟨hlow, hhigh⟩) (by positivity)

theorem round?_error (hm : mantissa < bound) (hct : ∀ b ∈ c :: t, b.isDigit = true)
    (h : round? mantissa scale c = some (m, s)) :
    |(m : ℚ) / 10 ^ s - amount mantissa scale (c :: t)| ≤ 1 / 2 / 10 ^ s := by
  have ht : ∀ b ∈ t, b.isDigit = true := fun b hb => hct b (List.mem_cons_of_mem c hb)
  have hbelow := Text.fractional_cons_lt_half (c := c) ht
  have hhalf := Text.half_le_fractional_cons (c := c) ht
  have hnonneg := Text.fractional_nonneg (c :: t)
  have hlt := Text.fractional_lt_one hct
  unfold amount
  generalize Text.fractional (c :: t) = x at hbelow hhalf hnonneg hlt ⊢
  rcases round?_cases hm h with ⟨hc, rfl, rfl⟩ | ⟨hc, rfl, rfl⟩ | ⟨hc, hm', rfl⟩
  · have hx : x < 1 / 2 := hbelow.mpr hc
    rw [← sub_div]
    exact abs_div_pow_le (by linarith) (by linarith) s
  · have hx : 1 / 2 ≤ x := hhalf.mpr hc
    rw [← sub_div]
    push_cast
    exact abs_div_pow_le (by linarith) (by linarith) s
  · have hx : 1 / 2 ≤ x := hhalf.mpr hc
    have hm'' : 10 * (m : ℚ) = mantissa + 5 := by exact_mod_cast hm'
    have hdiff : (m : ℚ) / 10 ^ s - (mantissa + x) / 10 ^ (s + 1) = (5 - x) / 10 / 10 ^ s := by
      rw [pow_succ]
      field_simp
      linarith
    rw [hdiff]
    exact abs_div_pow_le (by linarith) (by linarith) s

/-- What is read differs from what the digits stand for by at most half a unit in the last place. -/
theorem extend?_error (hm : mantissa < bound) (ht : ∀ c ∈ t, c.isDigit = true)
    (h : extend? mantissa scale t = some (m, s)) :
    |(m : ℚ) / 10 ^ s - amount mantissa scale t| ≤ 1 / 2 / 10 ^ s := by
  induction t generalizing mantissa scale with
  | nil =>
    cases h
    rw [amount_nil, sub_self, abs_zero]
    positivity
  | cons c t ih =>
    unfold extend? at h
    split at h
    · next hroom =>
      rw [amount_cons]
      exact ih hroom.2 (fun b hb => ht b (List.mem_cons_of_mem c hb)) h
    · exact round?_error hm ht h

theorem round?_eq_none_iff (hm : mantissa < bound) :
    round? mantissa scale c = none ↔
      5 ≤ Text.digitValue c ∧ mantissa + 1 = bound ∧ scale = 0 := by
  unfold round?
  split_ifs with hc hroom hscale
  · simp [hc]
  · simp [hroom.ne]
  · exact iff_of_true rfl
      ⟨Nat.le_of_not_lt hc, Nat.le_antisymm hm (Nat.le_of_not_lt hroom), hscale⟩
  · simp [hscale]

theorem round?_eq_none_iff_fractional (hm : mantissa < bound)
    (hct : ∀ b ∈ c :: t, b.isDigit = true) :
    round? mantissa scale c = none ↔
      scale = 0 ∧ (bound : ℚ) - 1 / 2 ≤ mantissa + Text.fractional (c :: t) := by
  have hhalf := Text.half_le_fractional_cons (c := c)
    (fun b hb => hct b (List.mem_cons_of_mem c hb))
  have hlt := Text.fractional_lt_one hct
  generalize Text.fractional (c :: t) = x at hhalf hlt ⊢
  rw [round?_eq_none_iff hm]
  constructor
  · rintro ⟨hc, hmax, hscale⟩
    have hx : 1 / 2 ≤ x := hhalf.mpr hc
    have hmax' : (mantissa : ℚ) + 1 = bound := by exact_mod_cast hmax
    exact ⟨hscale, by linarith⟩
  · rintro ⟨hscale, hx⟩
    have hmax : mantissa + 1 = bound := by
      by_contra hne
      have hle : mantissa + 2 ≤ bound := by omega
      have hle' : (mantissa : ℚ) + 2 ≤ bound := by exact_mod_cast hle
      linarith
    have hmax' : (mantissa : ℚ) + 1 = bound := by exact_mod_cast hmax
    exact ⟨hhalf.mp (by linarith), hmax, hscale⟩

/-- Reading fails only where the digits in front leave no place to give up and the number is rounded
up to the bound. -/
theorem extend?_eq_none_iff (hm : mantissa < bound) (ht : ∀ c ∈ t, c.isDigit = true) :
    extend? mantissa scale t = none ↔
      scale = 0 ∧ (bound : ℚ) - 1 / 2 ≤ mantissa + Text.fractional t := by
  induction t generalizing mantissa scale with
  | nil =>
    have hm' : (mantissa : ℚ) + 1 ≤ bound := by exact_mod_cast hm
    rw [Text.fractional_nil]
    constructor
    · intro h
      cases h
    · rintro ⟨-, h⟩
      linarith
  | cons c t ih =>
    unfold extend?
    split
    · next hroom =>
      rw [ih hroom.2 (fun b hb => ht b (List.mem_cons_of_mem c hb))]
      constructor
      · rintro ⟨h, -⟩
        cases h
      · rintro ⟨-, h⟩
        -- with room for one more digit the number is far below the bound
        have hsmall : 10 * mantissa ≤ bound := by omega
        have hsmall' : 10 * (mantissa : ℚ) ≤ bound := by exact_mod_cast hsmall
        have hbound : (2 : ℚ) ≤ bound := by exact_mod_cast (by decide : 2 ≤ bound)
        have hlt := Text.fractional_lt_one ht
        linarith
    · exact round?_eq_none_iff_fractional hm ht

/-- Where there is room for all digits, they are all read. -/
theorem extend?_eq_some (hscale : scale + t.length ≤ maxScale)
    (hm : mantissa * 10 ^ t.length + Text.value t < bound) :
    extend? mantissa scale t
      = some (mantissa * 10 ^ t.length + Text.value t, scale + t.length) := by
  induction t generalizing mantissa scale with
  | nil => simp [extend?, Text.value]
  | cons c t ih =>
    rw [List.length_cons] at hscale
    have hvalue : mantissa * 10 ^ (c :: t).length + Text.value (c :: t)
        = (10 * mantissa + Text.digitValue c) * 10 ^ t.length + Text.value t := by
      rw [Text.value_cons, List.length_cons, pow_succ]
      ring
    rw [hvalue] at hm ⊢
    have hroom : scale < maxScale ∧ 10 * mantissa + Text.digitValue c < bound := by
      refine ⟨by omega, ?_⟩
      calc 10 * mantissa + Text.digitValue c
          ≤ (10 * mantissa + Text.digitValue c) * 10 ^ t.length :=
            Nat.le_mul_of_pos_right _ (by positivity)
        _ ≤ _ := Nat.le_add_right _ _
        _ < bound := hm
    unfold extend?
    rw [if_pos hroom, ih (by omega) hm, List.length_cons, Nat.add_assoc, Nat.add_comm 1]

/-! ## the decimal of digits -/

/-- the mantissa with its sign -/
def coefficient (d : Decimal) : Int := if d.negative then -(d.mantissa : Int) else d.mantissa

/-- the number that a decimal stands for -/
def value (d : Decimal) : ℚ := d.coefficient / 10 ^ d.scale

variable {d : Decimal} {whole fraction : Text}

theorem ofDigits?_inv (sign : Number.Sign) (h : ofDigits? sign.negative whole fraction = some d) :
    Text.value whole < bound ∧
      extend? (Text.value whole) 0 fraction = some (d.mantissa, d.scale) ∧
      d.coefficient = sign.factor * d.mantissa := by
  unfold ofDigits? at h
  split at h
  · next hwhole =>
    obtain ⟨⟨m, s⟩, hms, rfl⟩ := Option.map_eq_some_iff.mp h
    refine ⟨hwhole, hms, ?_⟩
    unfold coefficient
    rw [← sign.factor_mul]
    by_cases hm : m = 0
    · simp [hm]
    · simp [hm]
  · cases h

/-- Digits make no decimal only where they are rounded up to the bound or are beyond it. -/
theorem ofDigits?_eq_none_iff {negative : Bool} (hfraction : ∀ c ∈ fraction, c.isDigit = true) :
    ofDigits? negative whole fraction = none ↔
      (bound : ℚ) - 1 / 2 ≤ Text.value whole + Text.fractional fraction := by
  unfold ofDigits?
  split
  · next hwhole =>
    rw [Option.map_eq_none_iff, extend?_eq_none_iff hwhole hfraction]
    exact and_iff_right rfl
  · next hwhole =>
    have hle : (bound : ℚ) ≤ Text.value whole := by exact_mod_cast Nat.le_of_not_lt hwhole
    have hnonneg := Text.fractional_nonneg fraction
    exact iff_of_true rfl (by linarith)

end Decimal

/-! ## the exact value -/

namespace Number

theorem Sign.abs_factor (s : Sign) : |(s.factor : ℚ)| = 1 := by
  cases s with
  | none => norm_num [factor]
  | plus => norm_num [factor]
  | minus => norm_num [factor]

variable {k : Culture} {raw : Text}

namespace Figure

/-- the number that all digits form, in the decimal system -/
def coefficient (f : Figure k) : Nat := Nat.ofDigits 10 (f.digits.reverse.map Text.digitValue)

/-- the exact value of a number: its digits form an integer, with as many of them behind the point as
the fraction has -/
def value (f : Figure k) : ℚ := f.sign.factor * f.coefficient / 10 ^ f.fractionDigits.length

theorem coefficient_eq (f : Figure k) :
    f.coefficient
      = Text.value f.wholeDigits * 10 ^ f.fractionDigits.length + Text.value f.fractionDigits := by
  unfold coefficient digits
  rw [← Text.value_eq_ofDigits, Text.value_append_text]

theorem value_eq_amount (f : Figure k) :
    f.value = f.sign.factor * Decimal.amount (Text.value f.wholeDigits) 0 f.fractionDigits := by
  unfold value Decimal.amount Text.fractional
  rw [coefficient_eq, pow_zero, div_one]
  push_cast
  field_simp

theorem abs_value (f : Figure k) :
    |f.value| = Text.value f.wholeDigits + Text.fractional f.fractionDigits := by
  have hnonneg := Text.fractional_nonneg f.fractionDigits
  rw [value_eq_amount, abs_mul, Sign.abs_factor, one_mul, Decimal.amount, pow_zero, div_one]
  exact abs_of_nonneg (by positivity)

/-- the decimal of the digits of a number -/
def decimal? (f : Figure k) : Option Decimal :=
  Decimal.ofDigits? f.sign.negative f.wholeDigits f.fractionDigits

variable {f : Figure k} {d : Decimal}

theorem exists_decimal_iff (f : Figure k) :
    (∃ d, f.decimal? = some d) ↔ |f.value| < 2 ^ 96 - 1 / 2 := by
  have hbound : (Decimal.bound : ℚ) = 2 ^ 96 := by rw [Decimal.bound_eq]; norm_num
  rw [abs_value, ← not_le, ← hbound, ← Decimal.ofDigits?_eq_none_iff f.fractionDigits_isDigit,
    ← Option.ne_none_iff_exists']
  rfl

theorem abs_sub_value_le (h : f.decimal? = some d) :
    |d.value - f.value| ≤ 1 / 2 / 10 ^ d.scale := by
  obtain ⟨hwhole, hextend, hcoefficient⟩ := Decimal.ofDigits?_inv f.sign h
  have hdiff : d.value - f.value = f.sign.factor * ((d.mantissa : ℚ) / 10 ^ d.scale
      - Decimal.amount (Text.value f.wholeDigits) 0 f.fractionDigits) := by
    rw [value_eq_amount, Decimal.value, hcoefficient]
    push_cast
    ring
  rw [hdiff, abs_mul, Sign.abs_factor, one_mul]
  exact Decimal.extend?_error hwhole f.fractionDigits_isDigit hextend

theorem decimal?_exact (h : f.decimal? = some d) (hlen : f.fractionDigits.length ≤ 28)
    (hlt : f.coefficient < 2 ^ 96) :
    d.scale = f.fractionDigits.length ∧ d.mantissa = f.coefficient ∧
      d.coefficient = f.sign.factor * f.coefficient := by
  obtain ⟨-, hextend, hcoefficient⟩ := Decimal.ofDigits?_inv f.sign h
  rw [coefficient_eq] at hlt
  rw [Decimal.extend?_eq_some (by rw [Nat.zero_add]; exact hlen) hlt, Nat.zero_add,
    ← coefficient_eq] at hextend
  obtain ⟨hmantissa, hscale⟩ := Prod.mk.inj (Option.some.inj hextend)
  exact ⟨hscale.symm, hmantissa.symm, hmantissa ▸ hcoefficient⟩

end Figure

/-! ## reading -/

theorem parseDecimal?_text (hk : k.Separated) (f : Figure k) (h : f.text = Text.trim raw) :
    parseDecimal? k raw = f.decimal? := by
  unfold parseDecimal?
  rw [normal?_text hk f h, Option.bind_some]
  unfold Decimal.ofNormal?
  rw [f.parts?_normalText]
  rfl

theorem exists_figure_of_parseDecimal? {d : Decimal} (h : parseDecimal? k raw = some d) :
    ∃ f : Figure k, f.text = Text.trim raw ∧ normal? k .decimal raw = some f.normalText ∧
      f.decimal? = some d := by
  unfold parseDecimal? at h
  obtain ⟨u, hu, hd⟩ := Option.bind_eq_some_iff.mp h
  obtain ⟨f, htext, rfl⟩ := exists_figure_of_normal? hu
  unfold Decimal.ofNormal? at hd
  rw [f.parts?_normalText] at hd
  exact ⟨f, htext, hu, hd⟩

/-- A text is read as a decimal if and only if it is a number below 2^96 - 1/2 without its sign.  The
decimal is then off the number by at most half a unit in its last place, and it has the digits of the
number where a decimal has room for them. -/
theorem parseDecimal?_denotes (hk : k.Separated) (raw : Text) :
    ((∃ d, parseDecimal? k raw = some d) ↔
        ∃ f : Figure k, f.text = Text.trim raw ∧ |f.value| < 2 ^ 96 - 1 / 2) ∧
      ∀ d, parseDecimal? k raw = some d → ∀ f : Figure k, f.text = Text.trim raw →
        |d.value - f.value| ≤ 1 / 2 / 10 ^ d.scale ∧
        (f.fractionDigits.length ≤ 28 → f.coefficient < 2 ^ 96 →
          d.scale = f.fractionDigits.length ∧ d.mantissa = f.coefficient ∧
            d.coefficient = f.sign.factor * f.coefficient) := by
  constructor
  · constructor
    · rintro ⟨d, hd⟩
      obtain ⟨f, htext, -, hf⟩ := exists_figure_of_parseDecimal? hd
      exact ⟨f, htext, f.exists_decimal_iff.mp ⟨d, hf⟩⟩
    · rintro ⟨f, htext, hlt⟩
      rw [parseDecimal?_text hk f htext]
      exact f.exists_decimal_iff.mpr hlt
  · intro d hd f htext
    rw [parseDecimal?_text hk f htext] at hd
    exact ⟨Figure.abs_sub_value_le hd, Figure.decimal?_exact hd⟩

/-- a number with Brazilian separators -/
def brazilian : Figure .ptBR :=
  ⟨.minus, ['1', '.', '2', '3', '4'], some ['5', '0'], by simp [Culture.ptBR], by simp, by simp,
    by simp⟩

theorem parseDecimal?_denotes_brazilian :
    Culture.ptBR.Separated ∧ brazilian.text = Text.trim " -1.234,50 ".toList ∧
      ∃ d, parseDecimal? .ptBR " -1.234,50 ".toList = some d ∧ d.scale = 2 ∧
        d.coefficient = -123450 := by
  have hk : Culture.ptBR.Separated := ⟨by decide, by decide, by decide, by decide, by decide⟩
  have htext : brazilian.text = Text.trim " -1.234,50 ".toList := by decide
  have hcoefficient : brazilian.coefficient = 123450 := by decide
  have hlen : brazilian.fractionDigits.length = 2 := by decide
  obtain ⟨hread, hdenotes⟩ := parseDecimal?_denotes hk " -1.234,50 ".toList
  have hsmall : |brazilian.value| < 2 ^ 96 - 1 / 2 := by
    rw [Figure.value, hcoefficient, hlen]
    norm_num [brazilian, Sign.factor, abs_lt]
  obtain ⟨d, hd⟩ := hread.mpr ⟨brazilian, htext, hsmall⟩
  obtain ⟨-, hexact⟩ := hdenotes d hd brazilian htext
  obtain ⟨hscale, -, hd'⟩ := hexact (by omega) (by rw [hcoefficient]; norm_num)
  exact ⟨hk, htext, d, hd, hscale.trans hlen, by rw [hd', hcoefficient]; rfl⟩

end Number

end FormatInverse
