import FormatInverse.Number.Numeral
import FormatInverse.Proofs.Number.Run
import FormatInverse.Proofs.Template.Form
import Mathlib.Data.List.TakeWhile

/-!
# Numbers as a culture writes them

`Figure k` is the grammar of a number without exponent: a sign, digits with group separators among
them, and maybe a decimal separator with digits behind it.  `Figure.text` writes it as the culture
does, `Figure.normalText` in normal form.

* `normal?_text`             what is written is brought into normal form, if the separators cannot be
                             taken for digits, for signs or for each other;
* `exists_figure_of_normal?` nothing else has a normal form, whatever the separators are.

The second goes along the `Run` of the number.
-/

namespace FormatInverse

/-- The separators can be told from each other, from digits and from signs. -/
structure Culture.Separated (k : Culture) : Prop where
  ne : k.decimalSeparator ≠ k.groupSeparator
  decimal_digit : k.decimalSeparator.isDigit = false
  decimal_sign : Number.isSign k.decimalSeparator = false
  group_digit : k.groupSeparator.isDigit = false
  group_sign : Number.isSign k.groupSeparator = false

namespace Number

variable {k : Culture} {style : Style} {met : Met} {c : Char} {t u raw : Text}

/-! ## runs of characters -/

/-- Where no separator is allowed, only digits follow. -/
theorem Run.eq_of_digits (h : Run k style met t u) (hstyle : style ≠ .float)
    (hplain : style = .integer ∨ met.fraction = true) :
    u = t ∧ (∀ c ∈ t, c.isDigit = true) ∧ (met.digit = true ∨ t ≠ []) := by
  induction h with
  | done hdigit => exact ⟨rfl, fun c hc => absurd hc List.not_mem_nil, Or.inl hdigit⟩
  | digit hc _ ih =>
    obtain ⟨rfl, hdigits, -⟩ := ih hplain
    exact ⟨rfl, List.forall_mem_cons.mpr ⟨hc, hdigits⟩, Or.inr (List.cons_ne_nil _ _)⟩
  | point _ _ hne hfraction => exact absurd hplain (by simp [hne, hfraction])
  | group _ _ _ hne _ hfraction => exact absurd hplain (by simp [hne, hfraction])
  | exponent _ _ hfloat => exact absurd hfloat hstyle

theorem body?_eq_some_iff_of_digits (hstyle : style ≠ .float)
    (hplain : style = .integer ∨ met.fraction = true) :
    body? k style met t = some u ↔
      u = t ∧ (∀ c ∈ t, c.isDigit = true) ∧ (met.digit = true ∨ t ≠ []) := by
  constructor
  · intro h
    exact (run_of_body? h).eq_of_digits hstyle hplain
  · rintro ⟨rfl, hdigits, hne⟩
    exact body?_of_digits hdigits hne

/-- the digits behind a point, and the point, if there is one -/
def pointed (point : Char) : Option Text → Text
  | none => []
  | some digits => point :: digits

/-- Before the fraction, digits and group separators are passed over, and a decimal separator opens
the fraction. -/
theorem Run.exists_parts (h : Run k .decimal met t u) (hbefore : met.fraction = false) :
    ∃ (whole : Text) (fraction : Option Text),
      t = whole ++ pointed k.decimalSeparator fraction ∧
      u = whole.filter Char.isDigit ++ pointed '.' fraction ∧
      (∀ c ∈ whole, c.isDigit = true ∨ c = k.groupSeparator) ∧
      (met.digit = false → ∀ c ∈ whole.head?, c.isDigit = true) ∧
      (∀ f ∈ fraction, ∀ c ∈ f, c.isDigit = true) ∧
      (met.digit = true ∨ whole ≠ [] ∨ ∃ f ∈ fraction, f ≠ []) := by
  induction h with
  | done hdigit => exact ⟨[], none, rfl, rfl, by simp, by simp, by simp, Or.inl hdigit⟩
  | @digit _ c _ _ hc _ ih =>
    obtain ⟨whole, fraction, rfl, rfl, hwhole, -, hfraction, -⟩ := ih hbefore
    refine ⟨c :: whole, fraction, rfl, ?_, List.forall_mem_cons.mpr ⟨Or.inl hc, hwhole⟩, ?_,
      hfraction, Or.inr (Or.inl (List.cons_ne_nil c whole))⟩
    · rw [List.filter_cons_of_pos hc]
      rfl
    · intro _ b hb
      obtain rfl : c = b := Option.some.inj hb
      exact hc
  | @point _ _ _ v _ hsep _ _ _ h =>
    obtain ⟨rfl, hdigits, hne⟩ := h.eq_of_digits (by decide) (Or.inr rfl)
    refine ⟨[], some v, ?_, rfl, by simp, by simp, ?_, ?_⟩
    · rw [hsep]
      rfl
    · intro f hf
      obtain rfl : v = f := Option.some.inj hf
      exact hdigits
    · rcases hne with hd | hne
      · exact Or.inl hd
      · exact Or.inr (Or.inr ⟨v, rfl, hne⟩)
  | @group _ c _ _ hc _ hsep _ hdigit _ _ _ ih =>
    obtain ⟨whole, fraction, rfl, rfl, hwhole, -, hfraction, -⟩ := ih hbefore
    refine ⟨c :: whole, fraction, rfl, ?_, List.forall_mem_cons.mpr ⟨Or.inr hsep, hwhole⟩, ?_,
      hfraction, Or.inl hdigit⟩
    · rw [List.filter_cons_of_neg (by simp [hc])]
    · intro hfalse
      rw [hdigit] at hfalse
      cases hfalse
  | exponent _ _ hfloat => cases hfloat

/-- Digits and group separators before the fraction. -/
theorem body?_whole (hk : k.Separated) {d : Bool} {whole rest : Text}
    (hwhole : ∀ c ∈ whole, c.isDigit = true ∨ c = k.groupSeparator)
    (hhead : d = false → ∀ c ∈ whole.head?, c.isDigit = true) :
    body? k .decimal ⟨d, false, false⟩ (whole ++ rest)
      = (body? k .decimal ⟨d || !whole.isEmpty, false, false⟩ rest).map
          (whole.filter Char.isDigit ++ ·) := by
  have hstyle : Style.decimal ≠ .integer := by decide
  induction whole generalizing d with
  | nil => simp
  | cons c whole ih =>
    have hrest : ∀ b ∈ whole, b.isDigit = true ∨ b = k.groupSeparator := by
      intro b hb
      exact hwhole b (List.mem_cons_of_mem c hb)
    have ih' := @ih true hrest (fun h => by cases h)
    rw [Bool.true_or] at ih'
    rw [List.cons_append, List.isEmpty_cons, Bool.not_false, Bool.or_true]
    by_cases hc : c.isDigit = true
    · rw [body?_digit hc, ih', List.filter_cons_of_pos hc, Option.map_map]
      rfl
    · rw [Bool.not_eq_true] at hc
      have hsep : c = k.groupSeparator := by
        rcases hwhole c List.mem_cons_self with h | h
        · rw [hc] at h
          cases h
        · exact h
      have hd : d = true := by
        by_contra h
        have hfirst := hhead (Bool.not_eq_true d ▸ h) c rfl
        rw [hc] at hfirst
        cases hfirst
      have hne : c ≠ k.decimalSeparator := by
        rw [hsep]
        exact hk.ne.symm
      rw [hd, body?_groupSeparator hstyle rfl rfl rfl hc hne hsep, ih',
        List.filter_cons_of_neg (by rw [hc]; exact Bool.false_ne_true)]

/-- A decimal separator and the digits behind it. -/
theorem body?_pointed_append (met : Met) {fraction : Option Text}
    (hsep : k.decimalSeparator.isDigit = false)
    (hdigits : ∀ f ∈ fraction, ∀ c ∈ f, c.isDigit = true)
    (honce : fraction ≠ none → style ≠ .integer ∧ met.fraction = false ∧ met.exponent = false)
    (t : Text) :
    body? k style met (pointed k.decimalSeparator fraction ++ t)
      = (body? k style ⟨met.digit || !(fraction.getD []).isEmpty, met.fraction || fraction.isSome,
          met.exponent⟩ t).map (pointed '.' fraction ++ ·) := by
  cases fraction with
  | none => simp [pointed]
  | some f =>
    obtain ⟨hstyle, hfraction, hexponent⟩ := honce (Option.some_ne_none f)
    show body? k style met (k.decimalSeparator :: (f ++ t)) = _
    rw [body?_decimalSeparator hstyle hfraction hexponent hsep rfl,
      body?_digits_append (hdigits f rfl), Option.map_map, hfraction]
    rfl

theorem body?_pointed (hk : k.Separated) {d : Bool} {fraction : Option Text}
    (hdigits : ∀ f ∈ fraction, ∀ c ∈ f, c.isDigit = true)
    (hne : d = true ∨ ∃ f ∈ fraction, f ≠ []) :
    body? k .decimal ⟨d, false, false⟩ (pointed k.decimalSeparator fraction)
      = some (pointed '.' fraction) := by
  have hdigit : (d || !(fraction.getD []).isEmpty) = true := by
    rcases hne with h | ⟨f, rfl, hne⟩
    · rw [h, Bool.true_or]
    · simp [hne]
  rw [← List.append_nil (pointed k.decimalSeparator fraction),
    body?_pointed_append ⟨d, false, false⟩ hk.decimal_digit hdigits fun _ => ⟨by decide, rfl, rfl⟩,
    body?_nil, if_pos hdigit]
  exact congrArg some (List.append_nil _)

/-! ## the parts -/

section
variable {whole : Text} {fraction : Option Text}

/-- What digits, or a separator that is no sign, stand in front of is no sign. -/
theorem not_isSign_of_head? {point : Char} (hwhole : ∀ c ∈ whole.head?, c.isDigit = true)
    (hpoint : isSign point = false) :
    ∀ c ∈ (whole ++ pointed point fraction).head?, isSign c = false := by
  intro c hc
  cases whole with
  | cons d whole =>
    obtain rfl : d = c := Option.some.inj hc
    exact isSign_of_isDigit (hwhole d rfl)
  | nil =>
    cases fraction with
    | none => cases hc
    | some f =>
      obtain rfl : point = c := Option.some.inj hc
      exact hpoint

theorem splitSign_normalText (s : Sign) (ht : ∀ c ∈ t.head?, isSign c = false) :
    splitSign (s.normalText ++ t) = (s.negative, t) := by
  have hnone : splitSign t = (false, t) := by
    unfold splitSign
    split
    · exact absurd (ht '-' rfl) (by decide)
    · rfl
  cases s with
  | none => exact hnone
  | plus => exact hnone
  | minus => rfl

theorem splitFraction_pointed (hfraction : ∀ f ∈ fraction, ∀ c ∈ f, c.isDigit = true) :
    splitFraction (pointed '.' fraction) = (fraction.getD [], []) := by
  cases fraction with
  | none => rfl
  | some f =>
    have hf : ∀ c ∈ f, c.isDigit = true := hfraction f rfl
    show (f.takeWhile Char.isDigit, f.dropWhile Char.isDigit) = (f, [])
    rw [List.takeWhile_eq_self_iff.mpr hf, List.dropWhile_eq_nil_iff.mpr hf]

/-- A number in normal form is taken apart as it was put together. -/
theorem parts?_normal (s : Sign) (hwhole : ∀ c ∈ whole, c.isDigit = true)
    (hfraction : ∀ f ∈ fraction, ∀ c ∈ f, c.isDigit = true)
    (hne : whole ≠ [] ∨ ∃ f ∈ fraction, f ≠ []) :
    parts? (s.normalText ++ (whole ++ pointed '.' fraction))
      = some ⟨s.negative, whole, fraction.getD [], 0⟩ := by
  have hhead : ∀ c ∈ whole.head?, c.isDigit = true := by
    intro c hc
    exact hwhole c (List.mem_of_mem_head? hc)
  have hpoint : ∀ c ∈ (pointed '.' fraction).head?, c.isDigit = false := by
    intro c hc
    cases fraction with
    | none => cases hc
    | some f =>
      obtain rfl : '.' = c := Option.some.inj hc
      rfl
  have hsome : (whole.isEmpty && (fraction.getD []).isEmpty) = false := by
    rw [Bool.and_eq_false_iff, List.isEmpty_eq_false_iff, List.isEmpty_eq_false_iff]
    rcases hne with hne | ⟨f, hf, hne⟩
    · exact Or.inl hne
    · obtain rfl : fraction = some f := hf
      exact Or.inr hne
  unfold parts?
  rw [splitSign_normalText s (not_isSign_of_head? hhead (by decide))]
  dsimp only
  rw [Anchor.takeWhile_run hwhole hpoint, Anchor.dropWhile_run hwhole hpoint,
    splitFraction_pointed hfraction]
  dsimp only
  rw [hsome]
  rfl

end

/-! ## the grammar of numbers -/

/-- A number as a culture writes it: a sign or none, digits and group separators, and maybe a
decimal separator and digits; no group separator stands before the first digit, and there is a digit
somewhere. -/
structure Figure (k : Culture) where
  sign : Sign
  /-- the digits before the decimal separator and the group separators -/
  whole : Text
  /-- the digits behind the decimal separator, where there is one -/
  fraction : Option Text
  whole_chars : ∀ c ∈ whole, c.isDigit = true ∨ c = k.groupSeparator
  whole_head : ∀ c ∈ whole.head?, c.isDigit = true
  fraction_digits : ∀ f ∈ fraction, ∀ c ∈ f, c.isDigit = true
  exists_digit : ∃ c ∈ whole ++ fraction.getD [], c.isDigit = true

namespace Figure

/-- the number as it is written -/
def text (f : Figure k) : Text := f.sign.text ++ (f.whole ++ pointed k.decimalSeparator f.fraction)

/-- the digits before the decimal separator -/
def wholeDigits (f : Figure k) : Text := f.whole.filter Char.isDigit

/-- the digits behind the decimal separator -/
def fractionDigits (f : Figure k) : Text := f.fraction.getD []

/-- all digits, in order -/
def digits (f : Figure k) : Text := f.wholeDigits ++ f.fractionDigits

/-- the number in normal form -/
def normalText (f : Figure k) : Text :=
  f.sign.normalText ++ (f.wholeDigits ++ pointed '.' f.fraction)

theorem wholeDigits_isDigit (f : Figure k) : ∀ c ∈ f.wholeDigits, c.isDigit = true := by
  intro c hc
  exact (List.mem_filter.mp hc).2

theorem fractionDigits_isDigit (f : Figure k) : ∀ c ∈ f.fractionDigits, c.isDigit = true := by
  intro c hc
  unfold fractionDigits at hc
  cases hf : f.fraction with
  | none =>
    rw [hf] at hc
    cases hc
  | some g =>
    rw [hf] at hc
    exact f.fraction_digits g hf c hc

theorem ne_nil (f : Figure k) : f.whole ≠ [] ∨ ∃ g ∈ f.fraction, g ≠ [] := by
  obtain ⟨c, hc, -⟩ := f.exists_digit
  rcases List.mem_append.mp hc with hc | hc
  · exact Or.inl (List.ne_nil_of_mem hc)
  · cases hf : f.fraction with
    | none =>
      rw [hf] at hc
      cases hc
    | some g =>
      rw [hf] at hc
      exact Or.inr ⟨g, rfl, List.ne_nil_of_mem hc⟩

theorem wholeDigits_ne_nil (f : Figure k) (h : f.whole ≠ []) : f.wholeDigits ≠ [] := by
  obtain ⟨c, t, ht⟩ := List.exists_cons_of_ne_nil h
  have hc : c.isDigit = true := f.whole_head c (by rw [ht]; rfl)
  unfold wholeDigits
  rw [ht, List.filter_cons_of_pos hc]
  exact List.cons_ne_nil _ _

/-- Behind its sign a number does not begin with another one. -/
theorem not_isSign_head (hk : k.Separated) (f : Figure k) :
    ∀ c ∈ (f.whole ++ pointed k.decimalSeparator f.fraction).head?, isSign c = false :=
  not_isSign_of_head? f.whole_head hk.decimal_sign

theorem parts?_normalText (f : Figure k) :
    parts? f.normalText = some ⟨f.sign.negative, f.wholeDigits, f.fractionDigits, 0⟩ := by
  have hne : f.wholeDigits ≠ [] ∨ ∃ g ∈ f.fraction, g ≠ [] := f.ne_nil.imp_left f.wholeDigits_ne_nil
  exact parts?_normal f.sign f.wholeDigits_isDigit f.fraction_digits hne

end Figure

/-- What a culture writes has a normal form. -/
theorem normal?_text (hk : k.Separated) (f : Figure k) (h : f.text = Text.trim raw) :
    normal? k .decimal raw = some f.normalText := by
  unfold normal?
  rw [← h, signed?_eq_some_iff]
  refine ⟨f.sign, _, _, rfl, rfl, fun _ => f.not_isSign_head hk, ?_⟩
  have hne : (false || !f.whole.isEmpty) = true ∨ ∃ g ∈ f.fraction, g ≠ [] := by
    rcases f.ne_nil with hwhole | hfraction
    · left
      rw [Bool.false_or, Bool.not_eq_true', List.isEmpty_eq_false_iff]
      exact hwhole
    · exact Or.inr hfraction
  rw [body?_whole hk f.whole_chars (fun _ => f.whole_head), body?_pointed hk f.fraction_digits hne]
  rfl

/-- Nothing else has a normal form. -/
theorem exists_figure_of_normal? (h : normal? k .decimal raw = some u) :
    ∃ f : Figure k, f.text = Text.trim raw ∧ f.normalText = u := by
  unfold normal? at h
  obtain ⟨s, rest, v, htext, rfl, -, hbody⟩ := signed?_eq_some_iff.mp h
  obtain ⟨whole, fraction, rfl, rfl, hwhole, hhead, hfraction, hne⟩ :=
    (run_of_body? hbody).exists_parts rfl
  have hdigit : ∃ c ∈ whole ++ fraction.getD [], c.isDigit = true := by
    rcases hne with h | hne | ⟨g, hg, hne⟩
    · cases h
    · obtain ⟨c, t, rfl⟩ := List.exists_cons_of_ne_nil hne
      exact ⟨c, List.mem_append_left _ List.mem_cons_self, hhead rfl c rfl⟩
    · obtain ⟨c, t, rfl⟩ := List.exists_cons_of_ne_nil hne
      obtain rfl : fraction = some (c :: t) := hg
      exact ⟨c, List.mem_append_right _ List.mem_cons_self, hfraction _ rfl c List.mem_cons_self⟩
  exact ⟨⟨s, whole, fraction, hwhole, hhead rfl, hfraction, hdigit⟩, htext.symm, rfl⟩

end Number

end FormatInverse
