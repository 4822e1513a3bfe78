import FormatInverse.Number.Parse
import FormatInverse.Proofs.Number.Figure
import FormatInverse.Proofs.Text.Blank

/-!
# Cultures only rename the separators

`Culture.localize` takes a number in invariant spelling to the spelling of a culture, character by
character.  The two numbers have one normal form (`normal?_localize`), so every parser reads them
alike, or neither.

The numbers are gone through side by side along `body?`: a character and its translation pass the
same tests (`Translates`), whatever has been met before, so `body?` takes the same branch for both.
-/

namespace FormatInverse

/-- the character that stands in a culture for a character of the invariant culture -/
def Culture.localize (k : Culture) (c : Char) : Char :=
  if c = '.' then k.decimalSeparator else if c = ',' then k.groupSeparator else c

namespace Number

def isExponent (c : Char) : Bool := c == 'e' || c == 'E'

/-- the characters of numbers in invariant spelling -/
def IsNumberChar (c : Char) : Prop :=
  c.isDigit = true ∨ isSign c = true ∨ c = '.' ∨ c = ',' ∨ isExponent c = true

end Number

/-- The separators can be told from each other, from all other characters of numbers, and from white
space. -/
structure Culture.Distinct (k : Culture) : Prop extends k.Separated where
  decimal_exponent : Number.isExponent k.decimalSeparator = false
  decimal_blank : Text.isBlank k.decimalSeparator = false
  group_exponent : Number.isExponent k.groupSeparator = false
  group_blank : Text.isBlank k.groupSeparator = false

namespace Number

variable {k : Culture} {style : Style} {met : Met} {c : Char} {t raw : Text}

/-! ## one character -/

/-- A character of the culture passes the same tests as the invariant one that it stands for. -/
structure Translates (k : Culture) (c d : Char) : Prop where
  digit : d.isDigit = c.isDigit
  sign : isSign d = isSign c
  decimal : (d == k.decimalSeparator) = (c == Culture.invariant.decimalSeparator)
  group : (d == k.groupSeparator) = (c == Culture.invariant.groupSeparator)
  exponent : (d == 'e' || d == 'E') = (c == 'e' || c == 'E')
  /-- what goes into the normal form goes there unchanged -/
  eq : c.isDigit = true ∨ isSign c = true → d = c

theorem localize_point (k : Culture) : k.localize '.' = k.decimalSeparator := rfl

theorem localize_comma (k : Culture) : k.localize ',' = k.groupSeparator := rfl

theorem localize_of_ne (hpoint : c ≠ '.') (hcomma : c ≠ ',') : k.localize c = c := by
  rw [Culture.localize, if_neg hpoint, if_neg hcomma]

/-- What is no digit, sign or exponent is no character of a number but a point or a comma. -/
theorem IsNumberChar.ne {sep : Char} (hc : IsNumberChar c) (hpoint : c ≠ '.') (hcomma : c ≠ ',')
    (hdigit : sep.isDigit = false) (hsign : isSign sep = false)
    (hexponent : isExponent sep = false) : c ≠ sep := by
  rintro rfl
  rcases hc with h | h | h | h | h
  · simp [hdigit] at h
  · simp [hsign] at h
  · exact hpoint h
  · exact hcomma h
  · simp [hexponent] at h

theorem translates_self (hk : k.Distinct) (hc : IsNumberChar c) (hpoint : c ≠ '.')
    (hcomma : c ≠ ',') : Translates k c c := by
  have hdecimal := hc.ne hpoint hcomma hk.decimal_digit hk.decimal_sign hk.decimal_exponent
  have hgroup := hc.ne hpoint hcomma hk.group_digit hk.group_sign hk.group_exponent
  refine ⟨rfl, rfl, ?_, ?_, rfl, fun _ => rfl⟩
  · simp [hdecimal, hpoint, Culture.invariant]
  · simp [hgroup, hcomma, Culture.invariant]

theorem translates_localize (hk : k.Distinct) (hc : IsNumberChar c) :
    Translates k c (k.localize c) := by
  by_cases hpoint : c = '.'
  · rw [hpoint, localize_point]
    refine ⟨hk.decimal_digit, hk.decimal_sign, ?_, ?_, hk.decimal_exponent, ?_⟩
    · simp [Culture.invariant]
    · simp [hk.ne, Culture.invariant]
    · intro h
      exact absurd h (by decide)
  · by_cases hcomma : c = ','
    · rw [hcomma, localize_comma]
      refine ⟨hk.group_digit, hk.group_sign, ?_, ?_, hk.group_exponent, ?_⟩
      · simp [hk.ne.symm, Culture.invariant]
      · simp [Culture.invariant]
      · intro h
        exact absurd h (by decide)
    · rw [localize_of_ne hpoint hcomma]
      exact translates_self hk hc hpoint hcomma

/-- No white space appears or goes. -/
theorem isBlank_localize (hk : k.Distinct) (c : Char) :
    Text.isBlank (k.localize c) = Text.isBlank c := by
  unfold Culture.localize
  split_ifs with hpoint hcomma
  · rw [hpoint, hk.decimal_blank]
    rfl
  · rw [hcomma, hk.group_blank]
    rfl
  · rfl

/-! ## the number -/

/-- The branch that is taken for a translated character is that of the invariant one. -/
theorem body?_translated {d : Char} (h : Translates k c d) :
    body? k style met (d :: t) =
      if c.isDigit then (body? k style { met with digit := true } t).map (c :: ·)
      else if style != .integer && c == Culture.invariant.decimalSeparator && !met.fraction
          && !met.exponent then
        (body? k style { met with fraction := true } t).map ('.' :: ·)
      else if style != .integer && c == Culture.invariant.groupSeparator && met.digit
          && !met.fraction && !met.exponent then
        body? k style met t
      else if style == .float && (c == 'e' || c == 'E') && met.digit && !met.exponent then
        match t with
        | [] => (body? k style { met with exponent := true } []).map ('e' :: ·)
        | s :: after =>
          if isSign s then
            (body? k style { met with exponent := true } after).map fun t => 'e' :: s :: t
          else (body? k style { met with exponent := true } (s :: after)).map ('e' :: ·)
      else none := by
  rw [body?.eq_def]
  dsimp only
  rw [h.digit, h.decimal, h.group, h.exponent]
  by_cases hc : c.isDigit = true
  · rw [if_pos hc, if_pos hc, h.eq (Or.inl hc)]
  · rw [if_neg hc, if_neg hc]
    rfl

theorem body?_localize (hk : k.Distinct) (ht : ∀ c ∈ t, IsNumberChar c) :
    body? k style met (t.map k.localize) = body? .invariant style met t := by
  have hhead : ∀ {c : Char} {u : Text}, (∀ b ∈ c :: u, IsNumberChar b) →
      Translates k c (k.localize c) :=
    fun hu => translates_localize hk (hu _ List.mem_cons_self)
  have htail : ∀ {c : Char} {u : Text}, (∀ b ∈ c :: u, IsNumberChar b) → ∀ b ∈ u, IsNumberChar b :=
    fun hu b hb => hu b (List.mem_cons_of_mem _ hb)
  -- the cases are the branches of the run on the invariant number
  fun_induction body? .invariant style met t with
  | case1 met hdigit =>
    rw [List.map_nil, body?_nil, if_pos hdigit]
  | case2 met hdigit =>
    rw [List.map_nil, body?_nil, if_neg hdigit]
  | case3 met c rest hdigit ih =>
    rw [List.map_cons, body?_translated (hhead ht), if_pos hdigit, ih (htail ht)]
  | case4 met c rest hdigit hdecimal ih =>
    rw [List.map_cons, body?_translated (hhead ht), if_neg hdigit, if_pos hdecimal, ih (htail ht)]
  | case5 met c rest hdigit hdecimal hgroup ih =>
    rw [List.map_cons, body?_translated (hhead ht), if_neg hdigit, if_neg hdecimal, if_pos hgroup,
      ih (htail ht)]
  | case6 met c hdigit hdecimal hgroup hexponent ih =>
    rw [List.map_cons, body?_translated (hhead ht), if_neg hdigit, if_neg hdecimal, if_neg hgroup,
      if_pos hexponent, ← ih (htail ht)]
    rfl
  | case7 met c hdigit hdecimal hgroup hexponent sign after hsign ih =>
    have hs : Translates k sign (k.localize sign) := hhead (htail ht)
    rw [List.map_cons, body?_translated (hhead ht), if_neg hdigit, if_neg hdecimal, if_neg hgroup,
      if_pos hexponent, ← ih (htail (htail ht)), List.map_cons]
    dsimp only
    rw [hs.eq (Or.inr hsign), if_pos hsign]
  | case8 met c hdigit hdecimal hgroup hexponent sign after hsign ih =>
    have hs : Translates k sign (k.localize sign) := hhead (htail ht)
    rw [List.map_cons, body?_translated (hhead ht), if_neg hdigit, if_neg hdecimal, if_neg hgroup,
      if_pos hexponent, ← ih (htail ht), List.map_cons]
    dsimp only
    rw [hs.sign, if_neg hsign]
  | case9 met c rest hdigit hdecimal hgroup hexponent =>
    rw [List.map_cons, body?_translated (hhead ht), if_neg hdigit, if_neg hdecimal, if_neg hgroup,
      if_neg hexponent]

theorem signed?_localize (hk : k.Distinct) (ht : ∀ c ∈ t, IsNumberChar c) :
    signed? k style (t.map k.localize) = signed? .invariant style t := by
  cases t with
  | nil => exact body?_localize hk ht
  | cons c t =>
    have hc := translates_localize hk (ht c List.mem_cons_self)
    have ht' : ∀ b ∈ t, IsNumberChar b := fun b hb => ht b (List.mem_cons_of_mem c hb)
    by_cases hsign : isSign c = true
    · rw [List.map_cons, hc.eq (Or.inr hsign)]
      simp only [isSign, Bool.or_eq_true, beq_iff_eq] at hsign
      rcases hsign with rfl | rfl
      · exact body?_localize hk ht'
      · show (body? k style _ (t.map k.localize)).map ('-' :: ·) = _
        rw [body?_localize hk ht']
        rfl
    · rw [Bool.not_eq_true] at hsign
      have hhead : ∀ b ∈ (c :: t).head?, isSign b = false := by
        intro b hb
        obtain rfl : c = b := Option.some.inj hb
        exact hsign
      have hhead' : ∀ b ∈ ((c :: t).map k.localize).head?, isSign b = false := by
        intro b hb
        obtain rfl : k.localize c = b := Option.some.inj hb
        exact hc.sign.trans hsign
      rw [signed?_of_not_sign hhead, signed?_of_not_sign hhead']
      exact body?_localize hk ht

/-- A number has one normal form in all cultures, or none in any of them. -/
theorem normal?_localize (hk : k.Distinct) (style : Style)
    (hraw : ∀ c ∈ Text.trim raw, IsNumberChar c) :
    normal? k style (raw.map k.localize) = normal? .invariant style raw := by
  unfold normal?
  rw [Text.trim_map (isBlank_localize hk)]
  exact signed?_localize hk hraw

/-- All parsers read a number in the spelling of a culture as they read it in invariant spelling. -/
theorem parsers_localize (hk : k.Distinct) (hraw : ∀ c ∈ Text.trim raw, IsNumberChar c) :
    parseDecimal? k (raw.map k.localize) = parseDecimal? .invariant raw ∧
      parseBinary64? k (raw.map k.localize) = parseBinary64? .invariant raw ∧
      parseInt64? k (raw.map k.localize) = parseInt64? .invariant raw := by
  unfold parseDecimal? parseBinary64? parseInt64?
  rw [normal?_localize hk .decimal hraw, normal?_localize hk .float hraw,
    normal?_localize hk .integer hraw]
  exact ⟨rfl, rfl, rfl⟩

/-- A number with both marks, which is no integer, in the spelling of Brazil, and an integer, which
is spelled alike everywhere.  The bits are those of `-1234.5`. -/
theorem parsers_localize_brazilian :
    Culture.ptBR.Distinct ∧
      (" -1,234.50 ".toList).map Culture.ptBR.localize = " -1.234,50 ".toList ∧
      parseDecimal? .ptBR " -1.234,50 ".toList = some ⟨true, 123450, 2⟩ ∧
      (parseBinary64? .ptBR " -1.234,50 ".toList).map Binary64.bits = some 0xC0934A0000000000 ∧
      parseInt64? .ptBR " -1.234,50 ".toList = none ∧
      (" -1234 ".toList).map Culture.ptBR.localize = " -1234 ".toList ∧
      parseInt64? .ptBR " -1234 ".toList = some (-1234) := by
  have hk : Culture.ptBR.Distinct :=
    ⟨⟨by decide, by decide, by decide, by decide, by decide⟩, by decide, by decide, by decide,
      by decide⟩
  have htrim : Text.trim " -1,234.50 ".toList = "-1,234.50".toList := by decide
  have hraw : ∀ c ∈ Text.trim " -1,234.50 ".toList, IsNumberChar c := by
    rw [htrim]
    simp [IsNumberChar, isSign]
  have htrim' : Text.trim " -1234 ".toList = "-1234".toList := by decide
  have hraw' : ∀ c ∈ Text.trim " -1234 ".toList, IsNumberChar c := by
    rw [htrim']
    simp [IsNumberChar, isSign]
  have hmap : (" -1,234.50 ".toList).map Culture.ptBR.localize = " -1.234,50 ".toList := by decide
  have hmap' : (" -1234 ".toList).map Culture.ptBR.localize = " -1234 ".toList := by decide
  obtain ⟨hdecimal, hfloat, hint⟩ := parsers_localize hk hraw
  obtain ⟨-, -, hint'⟩ := parsers_localize hk hraw'
  rw [hmap] at hdecimal hfloat hint
  rw [hmap'] at hint'
  have hbits : (parseBinary64? .invariant " -1,234.50 ".toList).map Binary64.bits
      = some 0xC0934A0000000000 := by decide +kernel
  rw [← hfloat] at hbits
  exact ⟨hk, hmap, hdecimal.trans (by decide +kernel), hbits, hint.trans (by decide +kernel), hmap',
    hint'.trans (by decide +kernel)⟩

end Number

end FormatInverse
