import FormatInverse.Proofs.Number.Figure
import FormatInverse.Proofs.Text.Blank

/-!
# The grammar of numbers in normal form

`Canonical style` is the grammar of normal forms: maybe a minus sign, digits, maybe a point with
digits behind it, maybe `e` with a sign and digits behind it.

* `exists_canonical_of_normal?`  what a number is brought into is of the grammar;
* `filter_isDigit_of_normal?`    it has the digits of the number, in their order;
* `Canonical.normal?_text`       what is of the grammar is its own normal form.

The first two go by induction along the `Run` of a number, whatever the separators are.  The invariant
of the first is `Rest style met`: what comes out is what the grammar still allows behind the parts
that have been met.
-/

namespace FormatInverse.Number

variable {k : Culture} {style : Style} {met : Met} {c : Char} {t u raw : Text}

/-! ## the grammar -/

/-- the exponent of a number in normal form -/
structure Exponent where
  sign : Sign
  digits : Text
  isDigit : ∀ c ∈ digits, c.isDigit = true

def Exponent.text (e : Exponent) : Text := 'e' :: (e.sign.text ++ e.digits)

/-- an exponent, if there is one -/
def exponentText (e : Option Exponent) : Text := e.elim [] Exponent.text

/-- A number in normal form, from where some of its parts have been met: digits, maybe a point with
digits behind it, maybe an exponent.  Integers have neither point nor exponent, decimals have no
exponent.  A part that has been met does not come again, a fraction does not come behind an exponent,
and there is a digit before the exponent or the end. -/
structure Rest (style : Style) (met : Met) where
  whole : Text
  /-- the digits behind the point, where there is one -/
  fraction : Option Text
  exponent : Option Exponent
  whole_digits : ∀ c ∈ whole, c.isDigit = true
  fraction_digits : ∀ f ∈ fraction, ∀ c ∈ f, c.isDigit = true
  fraction_once : fraction ≠ none →
    style ≠ .integer ∧ met.fraction = false ∧ met.exponent = false
  exponent_once : exponent ≠ none → style = .float ∧ met.exponent = false
  exists_digit : met.digit = true ∨ whole ≠ [] ∨ ∃ f ∈ fraction, f ≠ []

/-- A number in normal form: maybe a minus sign, and then all its parts. -/
structure Canonical (style : Style) where
  negative : Bool
  rest : Rest style ⟨false, false, false⟩

namespace Rest

def text (r : Rest style met) : Text :=
  r.whole ++ (pointed '.' r.fraction ++ exponentText r.exponent)

theorem fraction_eq_none (r : Rest style met)
    (h : met.fraction = true ∨ met.exponent = true) : r.fraction = none := by
  by_contra hne
  obtain ⟨-, hfraction, hexponent⟩ := r.fraction_once hne
  rcases h with h | h
  · rw [hfraction] at h
    cases h
  · rw [hexponent] at h
    cases h

theorem exponent_eq_none (r : Rest style met) (h : met.exponent = true) : r.exponent = none := by
  by_contra hne
  rw [(r.exponent_once hne).2] at h
  cases h

/-- nothing more -/
def nil (hdigit : met.digit = true) : Rest style met where
  whole := []
  fraction := none
  exponent := none
  whole_digits := fun _ hc => absurd hc List.not_mem_nil
  fraction_digits := fun _ hf => by cases hf
  fraction_once := fun h => absurd rfl h
  exponent_once := fun h => absurd rfl h
  exists_digit := Or.inl hdigit

/-- one more digit in front -/
def cons (c : Char) (hc : c.isDigit = true) (r : Rest style { met with digit := true }) :
    Rest style met where
  whole := c :: r.whole
  fraction := r.fraction
  exponent := r.exponent
  whole_digits := List.forall_mem_cons.mpr ⟨hc, r.whole_digits⟩
  fraction_digits := r.fraction_digits
  fraction_once := r.fraction_once
  exponent_once := r.exponent_once
  exists_digit := Or.inr (Or.inl (List.cons_ne_nil c r.whole))

/-- a point in front; the digits are those of the fraction now -/
def point (hstyle : style ≠ .integer) (hfraction : met.fraction = false)
    (hexponent : met.exponent = false) (r : Rest style { met with fraction := true }) :
    Rest style met where
  whole := []
  fraction := some r.whole
  exponent := r.exponent
  whole_digits := fun _ hc => absurd hc List.not_mem_nil
  fraction_digits := fun f hf => Option.some.inj hf ▸ r.whole_digits
  fraction_once := fun _ => ⟨hstyle, hfraction, hexponent⟩
  exponent_once := r.exponent_once
  exists_digit := by
    rcases r.exists_digit with hdigit | hne | ⟨f, hf, -⟩
    · exact Or.inl hdigit
    · exact Or.inr (Or.inr ⟨r.whole, rfl, hne⟩)
    · rw [r.fraction_eq_none (Or.inl rfl)] at hf
      cases hf

/-- an exponent in front; the digits are its own now -/
def mark (s : Sign) (hstyle : style = .float) (hdigit : met.digit = true)
    (hexponent : met.exponent = false) (r : Rest style { met with exponent := true }) :
    Rest style met where
  whole := []
  fraction := none
  exponent := some ⟨s, r.whole, r.whole_digits⟩
  whole_digits := fun _ hc => absurd hc List.not_mem_nil
  fraction_digits := fun _ hf => by cases hf
  fraction_once := fun h => absurd rfl h
  exponent_once := fun _ => ⟨hstyle, hexponent⟩
  exists_digit := Or.inl hdigit

theorem text_point {hstyle : style ≠ .integer} {hfraction : met.fraction = false}
    {hexponent : met.exponent = false} (r : Rest style { met with fraction := true }) :
    (r.point hstyle hfraction hexponent).text = '.' :: r.text := by
  unfold text
  rw [r.fraction_eq_none (Or.inl rfl)]
  rfl

theorem text_mark {s : Sign} {hstyle : style = .float} {hdigit : met.digit = true}
    {hexponent : met.exponent = false} (r : Rest style { met with exponent := true }) :
    (r.mark s hstyle hdigit hexponent).text = 'e' :: (s.text ++ r.text) := by
  have hwhole : r.text = r.whole := by
    unfold text
    rw [r.fraction_eq_none (Or.inr rfl), r.exponent_eq_none rfl]
    exact List.append_nil _
  rw [hwhole]
  rfl

end Rest

def Canonical.text (n : Canonical style) : Text :=
  (if n.negative then ['-'] else []) ++ n.rest.text

/-! ## numbers are brought into the grammar -/

/-- What comes out is what the grammar still allows. -/
theorem exists_rest_of_run (h : Run k style met t u) : ∃ r : Rest style met, r.text = u := by
  induction h with
  | done hdigit => exact ⟨.nil hdigit, rfl⟩
  | @digit _ c _ _ hc _ ih =>
    obtain ⟨r, rfl⟩ := ih
    exact ⟨r.cons c hc, rfl⟩
  | point _ _ hstyle hfraction hexponent _ ih =>
    obtain ⟨r, rfl⟩ := ih
    exact ⟨r.point hstyle hfraction hexponent, r.text_point⟩
  -- a group separator leaves nothing in the normal form
  | group _ _ _ _ _ _ _ _ ih => exact ih
  | exponent s _ hstyle hdigit hexponent _ ih =>
    obtain ⟨r, rfl⟩ := ih
    exact ⟨r.mark s hstyle hdigit hexponent, r.text_mark⟩

theorem exists_canonical_of_normal? (h : normal? k style raw = some u) :
    ∃ n : Canonical style, n.text = u := by
  unfold normal? at h
  obtain ⟨s, rest, v, -, rfl, -, hbody⟩ := signed?_eq_some_iff.mp h
  obtain ⟨r, rfl⟩ := exists_rest_of_run (run_of_body? hbody)
  refine ⟨⟨s.negative, r⟩, ?_⟩
  cases s with
  | none => rfl
  | plus => rfl
  | minus => rfl

/-! ## the digits -/

theorem Sign.filter_isDigit_text (s : Sign) : s.text.filter Char.isDigit = [] := by
  cases s with
  | none => rfl
  | plus => rfl
  | minus => rfl

theorem Sign.filter_isDigit_normalText (s : Sign) : s.normalText.filter Char.isDigit = [] := by
  cases s with
  | none => rfl
  | plus => rfl
  | minus => rfl

theorem filter_isDigit_of_run (h : Run k style met t u) :
    u.filter Char.isDigit = t.filter Char.isDigit := by
  induction h with
  | done => rfl
  | digit hc _ ih => rw [List.filter_cons_of_pos hc, List.filter_cons_of_pos hc, ih]
  | point hc _ _ _ _ _ ih =>
    rw [List.filter_cons_of_neg (by decide), List.filter_cons_of_neg (by simp [hc]), ih]
  | group hc _ _ _ _ _ _ _ ih => rw [List.filter_cons_of_neg (by simp [hc]), ih]
  | @exponent _ c _ _ s hc _ _ _ _ ih =>
    have hmark : ¬ c.isDigit = true := by
      rcases hc with rfl | rfl
      · decide
      · decide
    rw [List.filter_cons_of_neg (by decide), List.filter_cons_of_neg hmark, List.filter_append,
      List.filter_append, ih]

theorem filter_isDigit_of_normal? (h : normal? k style raw = some u) :
    u.filter Char.isDigit = raw.filter Char.isDigit := by
  unfold normal? at h
  obtain ⟨s, rest, v, htext, rfl, -, hbody⟩ := signed?_eq_some_iff.mp h
  have hblank : ∀ c, Text.isBlank c = true → Char.isDigit c = false := by
    intro c hc
    by_contra hdigit
    rw [Bool.not_eq_false] at hdigit
    rw [Text.isBlank_of_isDigit hdigit] at hc
    cases hc
  calc (s.normalText ++ v).filter Char.isDigit
      = v.filter Char.isDigit := by
        rw [List.filter_append, s.filter_isDigit_normalText, List.nil_append]
    _ = rest.filter Char.isDigit := filter_isDigit_of_run (run_of_body? hbody)
    _ = (Text.trim raw).filter Char.isDigit := by
        rw [htext, List.filter_append, s.filter_isDigit_text, List.nil_append]
    _ = raw.filter Char.isDigit := Text.filter_trim hblank raw

/-! ## normal forms are left as they are -/

theorem Sign.not_isBlank (s : Sign) : ∀ c ∈ s.text, Text.isBlank c = false := by
  intro c hc
  cases s with
  | none => cases hc
  | plus =>
    rw [List.mem_singleton.mp hc]
    decide
  | minus =>
    rw [List.mem_singleton.mp hc]
    decide

/-- A mark of the exponent takes the sign behind it along. -/
theorem body?_mark (hdigit : met.digit = true) (hexponent : met.exponent = false) (s : Sign)
    (ht : ∀ c ∈ t.head?, isSign c = false) :
    body? .invariant .float met ('e' :: (s.text ++ t))
      = (body? .invariant .float { met with exponent := true } t).map
          fun v => 'e' :: (s.text ++ v) := by
  obtain ⟨digit, fraction, exponent⟩ := met
  obtain rfl : digit = true := hdigit
  obtain rfl : exponent = false := hexponent
  -- the tests that are left compare letters, except whether a sign follows
  cases s with
  | none =>
    cases t with
    | nil => rfl
    | cons c t =>
      show (if isSign c then _ else _) = _
      rw [if_neg (by simp [ht c rfl])]
      rfl
  | plus => rfl
  | minus => rfl

theorem body?_exponentText (met : Met) {e : Option Exponent} (hdigit : met.digit = true)
    (h : e ≠ none → style = .float ∧ met.exponent = false) :
    body? .invariant style met (exponentText e) = some (exponentText e) := by
  cases e with
  | none =>
    show body? .invariant style met [] = some []
    rw [body?_nil, if_pos hdigit]
  | some e =>
    obtain ⟨rfl, hexponent⟩ := h (Option.some_ne_none e)
    have hhead : ∀ c ∈ e.digits.head?, isSign c = false := by
      intro c hc
      exact isSign_of_isDigit (e.isDigit c (List.mem_of_mem_head? hc))
    have hdigits : body? .invariant .float { met with exponent := true } e.digits
        = some e.digits :=
      body?_of_digits e.isDigit (Or.inl hdigit)
    show body? .invariant .float met ('e' :: (e.sign.text ++ e.digits)) = _
    rw [body?_mark hdigit hexponent e.sign hhead, hdigits]
    rfl

namespace Rest

theorem body?_text (r : Rest style met) : body? .invariant style met r.text = some r.text := by
  have hdigit : (met.digit || !r.whole.isEmpty || !(r.fraction.getD []).isEmpty) = true := by
    rcases r.exists_digit with h | h | ⟨f, hf, hne⟩
    · simp [h]
    · simp [h]
    · obtain hf : r.fraction = some f := hf
      simp [hf, hne]
  have hexponent : body? .invariant style
      ⟨met.digit || !r.whole.isEmpty || !(r.fraction.getD []).isEmpty,
        met.fraction || r.fraction.isSome, met.exponent⟩ (exponentText r.exponent)
      = some (exponentText r.exponent) :=
    body?_exponentText _ hdigit r.exponent_once
  have hpointed := body?_pointed_append (k := .invariant)
    ⟨met.digit || !r.whole.isEmpty, met.fraction, met.exponent⟩ rfl r.fraction_digits
    r.fraction_once (exponentText r.exponent)
  rw [hexponent] at hpointed
  unfold text
  rw [body?_digits_append r.whole_digits]
  exact congrArg (Option.map (r.whole ++ ·)) hpointed

/-- Behind its sign a number in normal form does not begin with another one. -/
theorem not_isSign_head (r : Rest style met) : ∀ c ∈ r.text.head?, isSign c = false := by
  intro c hc
  unfold text at hc
  rw [← List.append_assoc] at hc
  have hfront : ∀ c ∈ (r.whole ++ pointed '.' r.fraction).head?, isSign c = false :=
    not_isSign_of_head? (fun c hc => r.whole_digits c (List.mem_of_mem_head? hc)) (by decide)
  cases hne : r.whole ++ pointed '.' r.fraction with
  | cons d front =>
    rw [hne] at hc hfront
    exact hfront c hc
  | nil =>
    rw [hne] at hc
    cases he : r.exponent with
    | none =>
      rw [he] at hc
      cases hc
    | some e =>
      rw [he] at hc
      obtain rfl : 'e' = c := Option.some.inj hc
      rfl

/-- No white space is left, inside or at the ends. -/
theorem not_isBlank (r : Rest style met) : ∀ c ∈ r.text, Text.isBlank c = false := by
  intro c hc
  unfold text at hc
  rcases List.mem_append.mp hc with hc | hc
  · exact Text.isBlank_of_isDigit (r.whole_digits c hc)
  rcases List.mem_append.mp hc with hc | hc
  · cases hfraction : r.fraction with
    | none =>
      rw [hfraction] at hc
      cases hc
    | some f =>
      rw [hfraction] at hc
      rcases List.mem_cons.mp hc with rfl | hc
      · decide
      · exact Text.isBlank_of_isDigit (r.fraction_digits f hfraction c hc)
  · cases hexponent : r.exponent with
    | none =>
      rw [hexponent] at hc
      cases hc
    | some e =>
      rw [hexponent] at hc
      rcases List.mem_cons.mp hc with rfl | hc
      · decide
      rcases List.mem_append.mp hc with hc | hc
      · exact e.sign.not_isBlank c hc
      · exact Text.isBlank_of_isDigit (e.isDigit c hc)

end Rest

namespace Canonical

theorem trim_text (n : Canonical style) : Text.trim n.text = n.text := by
  apply Text.trim_of_not_blank
  unfold text
  split_ifs
  · exact List.forall_mem_cons.mpr ⟨by decide, n.rest.not_isBlank⟩
  · exact n.rest.not_isBlank

theorem signed?_text (n : Canonical style) : signed? .invariant style n.text = some n.text := by
  apply signed?_eq_some_iff.mpr
  refine ⟨if n.negative then .minus else .none, n.rest.text, n.rest.text, ?_, ?_,
    fun _ => n.rest.not_isSign_head, n.rest.body?_text⟩
  · unfold text
    split_ifs
    · rfl
    · rfl
  · unfold text
    split_ifs
    · rfl
    · rfl

/-- A number in normal form is its own normal form. -/
theorem normal?_text (n : Canonical style) : normal? .invariant style n.text = some n.text := by
  unfold normal?
  rw [n.trim_text, n.signed?_text]

end Canonical

/-- What a number is brought into is of the grammar, has the digits of the number in their order, and
is left as it is by the invariant culture, which so leaves every number of the grammar. -/
theorem normal?_canonical (k : Culture) (style : Style) (raw : Text) :
    (∀ t, normal? k style raw = some t →
        (∃ n : Canonical style, n.text = t) ∧
          t.filter Char.isDigit = raw.filter Char.isDigit ∧
          normal? .invariant style t = some t) ∧
      ∀ n : Canonical style, normal? .invariant style n.text = some n.text := by
  refine ⟨?_, Canonical.normal?_text⟩
  intro t ht
  obtain ⟨n, rfl⟩ := exists_canonical_of_normal? ht
  exact ⟨⟨n, rfl⟩, filter_isDigit_of_normal? ht, n.normal?_text⟩

theorem normal?_canonical_confusingMarks :
    normal? ⟨'e', '-', .dayMonthYear⟩ .float " +1-2e3E-4 ".toList = some "12.3e-4".toList ∧
      (∃ n : Canonical .float, n.text = "12.3e-4".toList) ∧
      "12.3e-4".toList.filter Char.isDigit = " +1-2e3E-4 ".toList.filter Char.isDigit ∧
      normal? .invariant .float "12.3e-4".toList = some "12.3e-4".toList := by
  have h : normal? ⟨'e', '-', .dayMonthYear⟩ .float " +1-2e3E-4 ".toList
      = some "12.3e-4".toList := by decide +kernel
  obtain ⟨hcanonical, -⟩ := normal?_canonical ⟨'e', '-', .dayMonthYear⟩ .float " +1-2e3E-4 ".toList
  exact ⟨h, hcanonical _ h⟩

end FormatInverse.Number
