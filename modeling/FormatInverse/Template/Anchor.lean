import FormatInverse.Template.Error
import FormatInverse.Text.Alphanumeric

/-!
# Anchors: the placeholders of a template text

An anchor is written `{index}`, `{index,span}`, `{index:format}` or `{index,span:format}`.  Each of
the readers below takes the text behind what is read already, and gives a value, the characters it
consumed and the rest; `..._eq_append` says that these two are a cut of what it was given.
-/

namespace FormatInverse

structure Anchor where
  /-- the anchor as it is written, braces included -/
  text : Text
  index : UInt64
  /-- the alignment width, zero where the section is absent -/
  span : Int32
  /-- the format section, `none` where it is absent or empty -/
  format : Option Text
  deriving DecidableEq, Repr

namespace Anchor

/-- the characters that a format section may hold -/
def isFormatChar (c : Char) : Bool :=
  Text.isAlphanumeric c || ['_', ' ', '/', '.', ',', '\\', ':', '#'].contains c

/-- The fault of a placeholder that opens at `start` and cannot go on with `rest` at `offset`. -/
def fault (start offset : Nat) (expected : Expected) : Text → TemplateError
  | [] => .unterminatedPlaceholder start
  | c :: _ => .unexpectedCharacter offset c expected

/-! ## the index -/

def readIndex (limit : UInt64) (start : Nat) (t : Text) :
    Except TemplateError (UInt64 × Text × Text) :=
  let digits := t.takeWhile Char.isDigit
  let rest := t.dropWhile Char.isDigit
  if digits.isEmpty then .error (fault start (start + 1) .indexDigit rest)
  else if Text.value digits ≤ limit.toNat then
    .ok (UInt64.ofNat (Text.value digits), digits, rest)
  else .error (.indexOutOfRange (start + 1) digits limit)

theorem readIndex_inv {limit : UInt64} {start : Nat} {t : Text} {index : UInt64}
    {used rest : Text} (h : readIndex limit start t = .ok (index, used, rest)) :
    t.takeWhile Char.isDigit ≠ [] ∧ Text.value (t.takeWhile Char.isDigit) ≤ limit.toNat ∧
      index = .ofNat (Text.value (t.takeWhile Char.isDigit)) ∧
      used = t.takeWhile Char.isDigit ∧ rest = t.dropWhile Char.isDigit := by
  simp only [readIndex] at h
  split at h
  · cases h
  · next hne =>
    rw [List.isEmpty_iff] at hne
    split at h
    · next hle =>
      cases h
      exact ⟨hne, hle, rfl, rfl, rfl⟩
    · cases h

theorem readIndex_eq_append {limit : UInt64} {start : Nat} {t : Text} {index : UInt64}
    {used rest : Text} (h : readIndex limit start t = .ok (index, used, rest)) :
    t = used ++ rest := by
  obtain ⟨-, -, -, rfl, rfl⟩ := readIndex_inv h
  exact List.takeWhile_append_dropWhile.symm

/-! ## the span section -/

/-- the value of a numeral with an optional minus sign -/
def signedValue : Text → Int
  | '-' :: digits => -(Text.value digits : Int)
  | digits => Text.value digits

/-- the sign of the span, if one is written -/
def spanSign : Text → Text
  | '-' :: _ => ['-']
  | _ => []

def unsigned : Text → Text
  | '-' :: rest => rest
  | t => t

theorem spanSign_append_unsigned (t : Text) : spanSign t ++ unsigned t = t := by
  unfold spanSign unsigned
  split <;> rfl

/-- The numeral of a span at `offset`, in a placeholder that opens at `start`. -/
def readWidth (start offset : Nat) (t : Text) : Except TemplateError (Int32 × Text × Text) :=
  let digits := (unsigned t).takeWhile Char.isDigit
  let rest := (unsigned t).dropWhile Char.isDigit
  let written := spanSign t ++ digits
  if digits.isEmpty then
    if rest.isEmpty then .error (.unterminatedPlaceholder start)
    else .error (.invalidSpan offset .noDigits)
  else if Int32.minValue.toInt ≤ signedValue written ∧
      signedValue written ≤ Int32.maxValue.toInt then
    .ok (Int32.ofInt (signedValue written), written, rest)
  else .error (.invalidSpan offset (.tooWide written))

/-- The span section, if a comma opens one. -/
def readSpan (start offset : Nat) : Text → Except TemplateError (Int32 × Text × Text)
  | ',' :: t => do
    let (width, written, rest) ← readWidth start (offset + 1) t
    return (width, ',' :: written, rest)
  | t => return (0, [], t)

theorem readWidth_inv {start offset : Nat} {t : Text} {width : Int32} {used rest : Text}
    (h : readWidth start offset t = .ok (width, used, rest)) :
    (unsigned t).takeWhile Char.isDigit ≠ [] ∧
      (Int32.minValue.toInt ≤ signedValue used ∧ signedValue used ≤ Int32.maxValue.toInt) ∧
      width = .ofInt (signedValue used) ∧
      used = spanSign t ++ (unsigned t).takeWhile Char.isDigit ∧
      rest = (unsigned t).dropWhile Char.isDigit := by
  simp only [readWidth] at h
  split at h
  · split at h <;> cases h
  · next hne =>
    rw [List.isEmpty_iff] at hne
    split at h
    · next hrange =>
      cases h
      exact ⟨hne, hrange, rfl, rfl, rfl⟩
    · cases h

theorem readWidth_eq_append {start offset : Nat} {t : Text} {width : Int32} {used rest : Text}
    (h : readWidth start offset t = .ok (width, used, rest)) : t = used ++ rest := by
  obtain ⟨-, -, -, rfl, rfl⟩ := readWidth_inv h
  rw [List.append_assoc, List.takeWhile_append_dropWhile, spanSign_append_unsigned]

/-- A span section has a comma and a numeral, or is not there. -/
theorem readSpan_cases {start offset : Nat} {t : Text} {span : Int32} {used rest : Text}
    (h : readSpan start offset t = .ok (span, used, rest)) :
    (∃ u written, t = ',' :: u ∧ readWidth start (offset + 1) u = .ok (span, written, rest) ∧
      used = ',' :: written) ∨
    (span = 0 ∧ used = [] ∧ rest = t) := by
  unfold readSpan at h
  split at h
  · next u =>
    cases hwidth : readWidth start (offset + 1) u with
    | error e =>
      rw [hwidth] at h
      cases h
    | ok r =>
      rw [hwidth] at h
      cases h
      exact Or.inl ⟨u, _, rfl, hwidth, rfl⟩
  · cases h
    exact Or.inr ⟨rfl, rfl, rfl⟩

theorem readSpan_eq_append {start offset : Nat} {t : Text} {span : Int32} {used rest : Text}
    (h : readSpan start offset t = .ok (span, used, rest)) : t = used ++ rest := by
  rcases readSpan_cases h with ⟨u, written, rfl, hwidth, rfl⟩ | ⟨-, rfl, rfl⟩
  · rw [readWidth_eq_append hwidth]
    rfl
  · rfl

/-! ## the format section -/

/-- The characters of a format at `offset`, up to the closing brace. -/
def readFormatText (start offset : Nat) (t : Text) : Except TemplateError (Text × Text) :=
  let used := t.takeWhile isFormatChar
  match t.dropWhile isFormatChar with
  | [] => .error (.unterminatedPlaceholder start)
  | '\x7d' :: rest => .ok (used, '\x7d' :: rest)
  | c :: _ => .error (.invalidFormatCharacter (offset + Text.bytes used) c)

/-- The format section, if a colon opens one. -/
def readFormat (start offset : Nat) : Text → Except TemplateError (Option Text × Text × Text)
  | ':' :: t => do
    let (used, rest) ← readFormatText start (offset + 1) t
    return (if used.isEmpty then none else some used, ':' :: used, rest)
  | t => return (none, [], t)

theorem readFormatText_inv {start offset : Nat} {t used rest : Text}
    (h : readFormatText start offset t = .ok (used, rest)) :
    used = t.takeWhile isFormatChar ∧ rest = t.dropWhile isFormatChar := by
  simp only [readFormatText] at h
  split at h
  · cases h
  · next hrest =>
    cases h
    exact ⟨rfl, hrest.symm⟩
  · cases h

theorem readFormatText_eq_append {start offset : Nat} {t used rest : Text}
    (h : readFormatText start offset t = .ok (used, rest)) : t = used ++ rest := by
  obtain ⟨rfl, rfl⟩ := readFormatText_inv h
  exact List.takeWhile_append_dropWhile.symm

/-- A format section has a colon and a text, maybe an empty one, or is not there. -/
theorem readFormat_cases {start offset : Nat} {t : Text} {format : Option Text}
    {used rest : Text} (h : readFormat start offset t = .ok (format, used, rest)) :
    (∃ u written, t = ':' :: u ∧ readFormatText start (offset + 1) u = .ok (written, rest) ∧
      used = ':' :: written ∧ format = if written.isEmpty then none else some written) ∨
    (format = none ∧ used = [] ∧ rest = t) := by
  unfold readFormat at h
  split at h
  · next u =>
    cases hformat : readFormatText start (offset + 1) u with
    | error e =>
      rw [hformat] at h
      cases h
    | ok r =>
      rw [hformat] at h
      cases h
      exact Or.inl ⟨u, _, rfl, hformat, rfl, rfl⟩
  · cases h
    exact Or.inr ⟨rfl, rfl, rfl⟩

theorem readFormat_eq_append {start offset : Nat} {t : Text} {format : Option Text}
    {used rest : Text} (h : readFormat start offset t = .ok (format, used, rest)) :
    t = used ++ rest := by
  rcases readFormat_cases h with ⟨u, written, rfl, hformat, rfl, -⟩ | ⟨-, rfl, rfl⟩
  · rw [readFormatText_eq_append hformat]
    rfl
  · rfl

/-! ## the whole anchor -/

/-- The closing brace, after `offset` bytes. -/
def readEnd (start offset : Nat) : Text → Except TemplateError Text
  | '\x7d' :: rest => .ok rest
  | t => .error (fault start offset .sectionOrEnd t)

/-- The anchor whose opening brace stands at `start` and is followed by `t`, and the text after
it.  Its index is at most `limit`. -/
def read (limit : UInt64) (start : Nat) (t : Text) : Except TemplateError (Anchor × Text) := do
  let (index, digits, t) ← readIndex limit start t
  let offset := start + 1 + Text.bytes digits
  let (span, width, t) ← readSpan start offset t
  let offset := offset + Text.bytes width
  let (format, tail, t) ← readFormat start offset t
  let offset := offset + Text.bytes tail
  let rest ← readEnd start offset t
  return (⟨'\x7b' :: (digits ++ width ++ tail ++ ['\x7d']), index, span, format⟩, rest)

theorem readEnd_eq_cons {start offset : Nat} {t rest : Text}
    (h : readEnd start offset t = .ok rest) : t = '\x7d' :: rest := by
  unfold readEnd at h
  split at h
  · cases h; rfl
  · cases h

/-- An anchor that is read consists of an index, two sections and a closing brace. -/
theorem exists_sections_of_read {limit : UInt64} {start : Nat} {t rest : Text} {a : Anchor}
    (h : read limit start t = .ok (a, rest)) :
    ∃ index digits t₁ span width t₂ format tail t₃ offset₁ offset₂ offset₃,
      readIndex limit start t = .ok (index, digits, t₁) ∧
      readSpan start offset₁ t₁ = .ok (span, width, t₂) ∧
      readFormat start offset₂ t₂ = .ok (format, tail, t₃) ∧
      readEnd start offset₃ t₃ = .ok rest ∧
      a = ⟨'\x7b' :: (digits ++ width ++ tail ++ ['\x7d']), index, span, format⟩ := by
  simp only [read, bind, Except.bind] at h
  split at h
  · cases h
  · next hindex =>
    split at h
    · cases h
    · next hspan =>
      split at h
      · cases h
      · next hformat =>
        split at h
        · cases h
        · next hend =>
          cases h
          exact ⟨_, _, _, _, _, _, _, _, _, _, _, _, hindex, hspan, hformat, hend, rfl⟩

/-- An anchor is a cut of the template text. -/
theorem read_eq_append {limit : UInt64} {start : Nat} {t rest : Text} {a : Anchor}
    (h : read limit start t = .ok (a, rest)) : '\x7b' :: t = a.text ++ rest := by
  obtain ⟨index, digits, t₁, span, width, t₂, format, tail, t₃, _, _, _, hindex, hspan, hformat,
    hend, rfl⟩ := exists_sections_of_read h
  rw [readIndex_eq_append hindex, readSpan_eq_append hspan, readFormat_eq_append hformat,
    readEnd_eq_cons hend]
  simp

theorem text_ne_nil_of_read {limit : UInt64} {start : Nat} {t rest : Text} {a : Anchor}
    (h : read limit start t = .ok (a, rest)) : a.text ≠ [] := by
  obtain ⟨_, _, _, _, _, _, _, _, _, _, _, _, -, -, -, -, rfl⟩ := exists_sections_of_read h
  exact List.cons_ne_nil _ _

end Anchor

end FormatInverse
