import FormatInverse.Number.Normal
import Mathlib.Tactic.ByContra

/-!
# How numbers are brought into normal form

`Run` says once what `body?` does with the characters in front of it: it takes a digit, or the decimal
separator, or a group separator, or the mark of an exponent with the sign behind it
(`run_of_body?`).  What holds of every normal form goes by induction along it.
-/

namespace FormatInverse.Number

variable {k : Culture} {style : Style} {met : Met} {c : Char} {t u : Text}

/-! ## one character -/

theorem body?_nil : body? k style met [] = if met.digit then some [] else none := by
  rw [body?.eq_def]

theorem body?_digit (hc : c.isDigit = true) :
    body? k style met (c :: t) = (body? k style { met with digit := true } t).map (c :: ·) := by
  rw [body?.eq_def]
  simp only [hc, if_true]

theorem body?_decimalSeparator (hstyle : style ≠ .integer) (hfraction : met.fraction = false)
    (hexponent : met.exponent = false) (hc : c.isDigit = false) (hsep : c = k.decimalSeparator) :
    body? k style met (c :: t)
      = (body? k style { met with fraction := true } t).map ('.' :: ·) := by
  rw [body?.eq_def]
  simp [hstyle, hfraction, hexponent, hc, hsep.symm]

theorem body?_groupSeparator (hstyle : style ≠ .integer) (hfraction : met.fraction = false)
    (hexponent : met.exponent = false) (hdigit : met.digit = true) (hc : c.isDigit = false)
    (hne : c ≠ k.decimalSeparator) (hsep : c = k.groupSeparator) :
    body? k style met (c :: t) = body? k style met t := by
  rw [body?.eq_def]
  simp [hstyle, hfraction, hexponent, hdigit, hc, hne, hsep.symm]

/-! ## signs -/

/-- how the sign of a number is written -/
inductive Sign where
  | none
  | plus
  | minus
  deriving DecidableEq, Repr

namespace Sign

def text : Sign → Text
  | none => []
  | plus => ['+']
  | minus => ['-']

/-- the sign in normal form -/
def normalText : Sign → Text
  | minus => ['-']
  | _ => []

def negative : Sign → Bool
  | minus => true
  | _ => false

/-- what the sign multiplies the number by -/
def factor : Sign → Int
  | minus => -1
  | _ => 1

/-- A negative sign and a factor do the same. -/
theorem factor_mul (s : Sign) (n : Int) : (if s.negative = true then -n else n) = s.factor * n := by
  cases s with
  | none => exact (Int.one_mul n).symm
  | plus => exact (Int.one_mul n).symm
  | minus => exact (Int.neg_one_mul n).symm

theorem natAbs_factor (s : Sign) : s.factor.natAbs = 1 := by
  cases s with
  | none => rfl
  | plus => rfl
  | minus => rfl

end Sign

theorem isSign_of_isDigit (hc : c.isDigit = true) : isSign c = false := by
  unfold isSign
  rw [Bool.or_eq_false_iff, beq_eq_false_iff_ne, beq_eq_false_iff_ne]
  constructor
  · rintro rfl
    exact absurd hc (by decide)
  · rintro rfl
    exact absurd hc (by decide)

theorem exists_sign_of_isSign (hc : isSign c = true) : ∃ s : Sign, s.text = [c] := by
  unfold isSign at hc
  rw [Bool.or_eq_true, beq_iff_eq, beq_iff_eq] at hc
  rcases hc with rfl | rfl
  · exact ⟨.plus, rfl⟩
  · exact ⟨.minus, rfl⟩

/-! ## the body -/

/-- How `body?` goes over a text, and what it makes of it. -/
inductive Run (k : Culture) (style : Style) : Met → Text → Text → Prop where
  | done {met : Met} (hdigit : met.digit = true) : Run k style met [] []
  | digit {met : Met} {c : Char} {t u : Text} (hc : c.isDigit = true)
      (h : Run k style { met with digit := true } t u) : Run k style met (c :: t) (c :: u)
  | point {met : Met} {c : Char} {t u : Text} (hc : c.isDigit = false)
      (hsep : c = k.decimalSeparator) (hstyle : style ≠ .integer) (hfraction : met.fraction = false)
      (hexponent : met.exponent = false) (h : Run k style { met with fraction := true } t u) :
      Run k style met (c :: t) ('.' :: u)
  | group {met : Met} {c : Char} {t u : Text} (hc : c.isDigit = false)
      (hne : c ≠ k.decimalSeparator) (hsep : c = k.groupSeparator) (hstyle : style ≠ .integer)
      (hdigit : met.digit = true) (hfraction : met.fraction = false)
      (hexponent : met.exponent = false) (h : Run k style met t u) : Run k style met (c :: t) u
  | exponent {met : Met} {c : Char} {t u : Text} (s : Sign) (hc : c = 'e' ∨ c = 'E')
      (hstyle : style = .float) (hdigit : met.digit = true) (hexponent : met.exponent = false)
      (h : Run k style { met with exponent := true } t u) :
      Run k style met (c :: (s.text ++ t)) ('e' :: (s.text ++ u))

/-- where the mark of an exponent is taken for one -/
theorem exponent_allowed
    (h : (style == .float && (c == 'e' || c == 'E') && met.digit && !met.exponent) = true) :
    style = .float ∧ (c = 'e' ∨ c = 'E') ∧ met.digit = true ∧ met.exponent = false := by
  simp only [Bool.and_eq_true, Bool.or_eq_true, beq_iff_eq, Bool.not_eq_true'] at h
  obtain ⟨⟨⟨hstyle, hc⟩, hdigit⟩, hexponent⟩ := h
  exact ⟨hstyle, hc, hdigit, hexponent⟩

theorem run_of_body? (h : body? k style met t = some u) : Run k style met t u := by
  fun_induction body? k style met t generalizing u with
  | case1 met hdigit =>
    obtain rfl := Option.some.inj h
    exact .done hdigit
  | case2 met hdigit => cases h
  | case3 met c rest hdigit ih =>
    obtain ⟨v, hv, rfl⟩ := Option.map_eq_some_iff.mp h
    exact .digit hdigit (ih hv)
  | case4 met c rest hdigit hdecimal ih =>
    simp only [Bool.and_eq_true, bne_iff_ne, beq_iff_eq, Bool.not_eq_true'] at hdecimal
    obtain ⟨⟨⟨hstyle, hsep⟩, hfraction⟩, hexponent⟩ := hdecimal
    obtain ⟨v, hv, rfl⟩ := Option.map_eq_some_iff.mp h
    exact .point (Bool.not_eq_true _ ▸ hdigit) hsep hstyle hfraction hexponent (ih hv)
  | case5 met c rest hdigit hdecimal hgroup ih =>
    simp only [Bool.and_eq_true, bne_iff_ne, beq_iff_eq, Bool.not_eq_true'] at hdecimal hgroup
    obtain ⟨⟨⟨⟨hstyle, hsep⟩, hmet⟩, hfraction⟩, hexponent⟩ := hgroup
    have hne : c ≠ k.decimalSeparator := by
      intro heq
      exact hdecimal ⟨⟨⟨hstyle, heq⟩, hfraction⟩, hexponent⟩
    exact .group (Bool.not_eq_true _ ▸ hdigit) hne hsep hstyle hmet hfraction hexponent (ih h)
  | case6 met c hdigit hdecimal hgroup hmark ih =>
    obtain ⟨hstyle, hc, hmet, hexponent⟩ := exponent_allowed hmark
    obtain ⟨v, hv, rfl⟩ := Option.map_eq_some_iff.mp h
    exact .exponent .none hc hstyle hmet hexponent (ih hv)
  | case7 met c hdigit hdecimal hgroup hmark sign after hsign ih =>
    obtain ⟨hstyle, hc, hmet, hexponent⟩ := exponent_allowed hmark
    obtain ⟨v, hv, rfl⟩ := Option.map_eq_some_iff.mp h
    -- the sign is passed over together with the mark
    obtain ⟨s, hs⟩ := exists_sign_of_isSign hsign
    have hrun := Run.exponent s hc hstyle hmet hexponent (ih hv)
    rw [hs] at hrun
    exact hrun
  | case8 met c hdigit hdecimal hgroup hmark sign after hsign ih =>
    obtain ⟨hstyle, hc, hmet, hexponent⟩ := exponent_allowed hmark
    obtain ⟨v, hv, rfl⟩ := Option.map_eq_some_iff.mp h
    exact .exponent .none hc hstyle hmet hexponent (ih hv)
  | case9 met c rest hdigit hdecimal hgroup hmark => cases h

theorem body?_digits_append {digits : Text} (h : ∀ c ∈ digits, c.isDigit = true) (t : Text) :
    body? k style met (digits ++ t)
      = (body? k style { met with digit := met.digit || !digits.isEmpty } t).map
          (digits ++ ·) := by
  induction digits generalizing met with
  | nil => simp
  | cons c digits ih =>
    rw [List.cons_append, body?_digit (h c List.mem_cons_self),
      ih fun d hd => h d (List.mem_cons_of_mem c hd), Option.map_map]
    simp [Function.comp_def]

/-- Digits stay as they are. -/
theorem body?_of_digits (ht : ∀ c ∈ t, c.isDigit = true) (hne : met.digit = true ∨ t ≠ []) :
    body? k style met t = some t := by
  have hdigit : (met.digit || !t.isEmpty) = true := by
    rcases hne with h | h
    · simp [h]
    · simp [h]
  rw [← List.append_nil t, body?_digits_append ht, body?_nil, List.append_nil, if_pos hdigit]
  simp

/-! ## the sign of a number -/

theorem signed?_of_not_sign (h : ∀ c ∈ t.head?, isSign c = false) :
    signed? k style t = body? k style ⟨false, false, false⟩ t := by
  unfold signed?
  split
  · exact absurd (h '-' rfl) (by decide)
  · exact absurd (h '+' rfl) (by decide)
  · rfl

/-- A number is a sign and a body; a sign is taken for one wherever it stands in front. -/
theorem signed?_eq_some_iff :
    signed? k style t = some u ↔
      ∃ (s : Sign) (rest v : Text), t = s.text ++ rest ∧ u = s.normalText ++ v ∧
        (s = .none → ∀ c ∈ rest.head?, isSign c = false) ∧
        body? k style ⟨false, false, false⟩ rest = some v := by
  constructor
  · intro h
    by_cases hsign : ∀ c ∈ t.head?, isSign c = false
    · rw [signed?_of_not_sign hsign] at h
      exact ⟨.none, t, u, rfl, rfl, fun _ => hsign, h⟩
    · cases t with
      | nil => exact absurd (fun c hc => by cases hc) hsign
      | cons c t =>
        have hc : isSign c = true := by
          by_contra hc
          apply hsign
          intro b hb
          obtain rfl : c = b := Option.some.inj hb
          exact Bool.not_eq_true (isSign c) ▸ hc
        unfold isSign at hc
        rw [Bool.or_eq_true, beq_iff_eq, beq_iff_eq] at hc
        rcases hc with rfl | rfl
        · exact ⟨.plus, t, u, rfl, rfl, (fun h => by cases h), h⟩
        · obtain ⟨v, hv, rfl⟩ := Option.map_eq_some_iff.mp h
          exact ⟨.minus, t, v, rfl, rfl, (fun h => by cases h), hv⟩
  · rintro ⟨s, rest, v, rfl, rfl, hsign, hv⟩
    cases s with
    | none => exact (signed?_of_not_sign (hsign rfl)).trans hv
    | plus => exact hv
    | minus =>
      show (body? k style ⟨false, false, false⟩ rest).map ('-' :: ·) = _
      rw [hv]
      rfl

end FormatInverse.Number
