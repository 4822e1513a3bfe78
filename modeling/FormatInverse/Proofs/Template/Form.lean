import FormatInverse.Proofs.Text.Numeral
import FormatInverse.Template.Anchor

/-!
# The grammar of anchors

`Anchor.Form` holds what the grammar puts between the braces of an anchor: the digits of the index,
a numeral for the span and the characters of the format, where these sections are written.
`Form.text` writes an anchor, `Form.anchor` is what it stands for, and reading undoes writing:

* `read_form`             a written form is read as its anchor, whatever text follows it;
* `exists_form_of_read`   nothing else is read as an anchor.
-/

namespace FormatInverse

namespace Anchor

/-! ## runs of characters -/

section
variable {p : Char → Bool} {s rest : Text}

theorem takeWhile_run (hs : ∀ c ∈ s, p c) (hrest : ∀ c ∈ rest.head?, p c = false) :
    (s ++ rest).takeWhile p = s := by
  rw [List.takeWhile_append_of_pos hs]
  cases rest with
  | nil => exact List.append_nil s
  | cons c rest =>
    have hc := hrest c rfl
    rw [List.takeWhile_cons_of_neg (by rw [hc]; exact Bool.false_ne_true), List.append_nil]

theorem dropWhile_run (hs : ∀ c ∈ s, p c) (hrest : ∀ c ∈ rest.head?, p c = false) :
    (s ++ rest).dropWhile p = rest := by
  rw [List.dropWhile_append_of_pos hs]
  cases rest with
  | nil => rfl
  | cons c rest =>
    have hc := hrest c rfl
    rw [List.dropWhile_cons_of_neg (by rw [hc]; exact Bool.false_ne_true)]

/-- What stops a run of characters is none of them. -/
theorem eq_false_of_head?_dropWhile {c : Char} (h : c ∈ (s.dropWhile p).head?) : p c = false := by
  have hnot := List.head?_dropWhile_not p s
  rw [h] at hnot
  exact hnot

end

/-! ## numerals -/

/-- one decimal digit or more -/
structure Digits where
  text : Text
  ne_nil : text ≠ []
  isDigit : ∀ c ∈ text, c.isDigit

namespace Digits

/-- the number in the decimal system -/
def value (d : Digits) : Nat := Nat.ofDigits 10 (d.text.reverse.map Text.digitValue)

theorem value_text (d : Digits) : Text.value d.text = d.value := Text.value_eq_ofDigits d.text

/-- the digits that a text begins with -/
def front (t : Text) (h : t.takeWhile Char.isDigit ≠ []) : Digits :=
  ⟨t.takeWhile Char.isDigit, h, fun c hc => List.all_eq_true.mp List.all_takeWhile c hc⟩

theorem append_ne_cons (d : Digits) {c : Char} (hc : c.isDigit = false) (rest t : Text) :
    d.text ++ rest ≠ c :: t := by
  intro h
  obtain ⟨c', s, hs⟩ := List.exists_cons_of_ne_nil d.ne_nil
  have hc' : c'.isDigit := d.isDigit c' (by rw [hs]; exact List.mem_cons_self)
  rw [hs] at h
  rw [(List.cons.inj h).1, hc] at hc'
  cases hc'

end Digits

/-- digits with an optional minus sign -/
structure Numeral where
  negative : Bool
  digits : Digits

namespace Numeral

def sign (n : Numeral) : Text := if n.negative then ['-'] else []

def text (n : Numeral) : Text := n.sign ++ n.digits.text

def value (n : Numeral) : Int := if n.negative then -(n.digits.value : Int) else n.digits.value

end Numeral

section
variable {t : Text} (h : ∀ u, t ≠ '-' :: u)
include h

theorem spanSign_of_ne : spanSign t = [] := by
  unfold spanSign
  split
  · exact absurd rfl (h _)
  · rfl

theorem unsigned_of_ne : unsigned t = t := by
  unfold unsigned
  split
  · exact absurd rfl (h _)
  · rfl

theorem signedValue_of_ne : signedValue t = Text.value t := by
  unfold signedValue
  split
  · exact absurd rfl (h _)
  · rfl

end

section
variable (n : Numeral) (rest : Text)

theorem spanSign_numeral : spanSign (n.text ++ rest) = n.sign := by
  obtain ⟨negative, digits⟩ := n
  cases negative with
  | true => rfl
  | false => exact spanSign_of_ne (digits.append_ne_cons rfl rest)

theorem unsigned_numeral : unsigned (n.text ++ rest) = n.digits.text ++ rest := by
  obtain ⟨negative, digits⟩ := n
  cases negative with
  | true => rfl
  | false => exact unsigned_of_ne (digits.append_ne_cons rfl rest)

theorem signedValue_numeral : signedValue n.text = n.value := by
  obtain ⟨negative, digits⟩ := n
  cases negative with
  | true =>
    show -(Text.value digits.text : Int) = -(digits.value : Int)
    rw [digits.value_text]
  | false =>
    have hne := digits.append_ne_cons (c := '-') rfl []
    rw [List.append_nil] at hne
    show signedValue digits.text = (digits.value : Int)
    rw [signedValue_of_ne hne, digits.value_text]

end

/-- Every text begins with the sign of a numeral, or with none. -/
theorem exists_sign (t : Text) (d : Digits) : ∃ n : Numeral, n.sign = spanSign t ∧ n.digits = d := by
  unfold spanSign
  split
  · exact ⟨⟨true, d⟩, rfl, rfl⟩
  · exact ⟨⟨false, d⟩, rfl, rfl⟩

/-! ## sections -/

/-- the section of a span as it is written -/
def spanSection : Option Numeral → Text
  | none => []
  | some n => ',' :: n.text

/-- the number of a span, zero where there is no section -/
def spanValue : Option Numeral → Int
  | none => 0
  | some n => n.value

/-- the section of a format as it is written -/
def formatSection : Option Text → Text
  | none => []
  | some f => ':' :: f

/-- The sections of an anchor that the grammar allows, when its index is at most `limit`. -/
structure Form (limit : UInt64) where
  index : Digits
  index_le : index.value ≤ limit.toNat
  span : Option Numeral
  span_range : ∀ n ∈ span, Int32.minValue.toInt ≤ n.value ∧ n.value ≤ Int32.maxValue.toInt
  /-- the characters behind the colon, maybe none -/
  format : Option Text
  format_chars : ∀ f ∈ format, ∀ c ∈ f, isFormatChar c

namespace Form

variable {limit : UInt64}

/-- the anchor as it is written -/
def text (f : Form limit) : Text :=
  '\x7b' :: (f.index.text ++ spanSection f.span ++ formatSection f.format ++ ['\x7d'])

theorem text_append (f : Form limit) (rest : Text) :
    f.text ++ rest = '\x7b' ::
      (f.index.text ++ (spanSection f.span ++ (formatSection f.format ++ '\x7d' :: rest))) := by
  rw [text, List.cons_append, List.append_assoc, List.append_assoc, List.append_assoc,
    List.singleton_append]

theorem spanValue_range (f : Form limit) :
    Int32.minValue.toInt ≤ spanValue f.span ∧ spanValue f.span ≤ Int32.maxValue.toInt := by
  cases h : f.span with
  | none => exact ⟨by decide, by decide⟩
  | some n => exact f.span_range n h

/-- the anchor that a form stands for -/
def anchor (f : Form limit) : Anchor where
  text := f.text
  index := .ofNatLT f.index.value (Nat.lt_of_le_of_lt f.index_le limit.toNat_lt)
  span := .ofIntLE (spanValue f.span) f.spanValue_range.1 f.spanValue_range.2
  format := f.format.filter (!·.isEmpty)

end Form

/-! ## what is written is read -/

section
variable {limit : UInt64} {rest : Text} (start offset : Nat)

theorem readIndex_digits {d : Digits} (hd : d.value ≤ limit.toNat)
    (hrest : ∀ c ∈ rest.head?, c.isDigit = false) :
    readIndex limit start (d.text ++ rest) = .ok (.ofNat d.value, d.text, rest) := by
  have hne : ¬ d.text.isEmpty = true := fun h => d.ne_nil (List.isEmpty_iff.mp h)
  simp only [readIndex, takeWhile_run d.isDigit hrest, dropWhile_run d.isDigit hrest, d.value_text]
  rw [if_neg hne, if_pos hd]

theorem readWidth_numeral {n : Numeral}
    (hn : Int32.minValue.toInt ≤ n.value ∧ n.value ≤ Int32.maxValue.toInt)
    (hrest : ∀ c ∈ rest.head?, c.isDigit = false) :
    readWidth start offset (n.text ++ rest) = .ok (.ofInt n.value, n.text, rest) := by
  have hne : ¬ n.digits.text.isEmpty = true := fun h => n.digits.ne_nil (List.isEmpty_iff.mp h)
  have htext : n.sign ++ n.digits.text = n.text := rfl
  simp only [readWidth, spanSign_numeral, unsigned_numeral, takeWhile_run n.digits.isDigit hrest,
    dropWhile_run n.digits.isDigit hrest, htext, signedValue_numeral]
  rw [if_neg hne, if_pos hn]

theorem readSpan_section {w : Option Numeral}
    (hw : ∀ n ∈ w, Int32.minValue.toInt ≤ n.value ∧ n.value ≤ Int32.maxValue.toInt)
    (hrest : ∀ c ∈ rest.head?, c.isDigit = false ∧ c ≠ ',') :
    readSpan start offset (spanSection w ++ rest)
      = .ok (.ofInt (spanValue w), spanSection w, rest) := by
  cases w with
  | some n =>
    have hread := readWidth_numeral start (offset + 1) (hw n rfl) fun c hc => (hrest c hc).1
    show (readWidth start (offset + 1) (n.text ++ rest)).bind _ = _
    rw [hread]
    rfl
  | none =>
    show readSpan start offset rest = _
    unfold readSpan
    split
    · next t => exact absurd rfl (hrest ',' rfl).2
    · rfl

theorem readFormatText_run {f : Text} (hf : ∀ c ∈ f, isFormatChar c) :
    readFormatText start offset (f ++ '\x7d' :: rest) = .ok (f, '\x7d' :: rest) := by
  have hclose : ∀ c ∈ ('\x7d' :: rest).head?, isFormatChar c = false := by
    intro c hc
    obtain rfl := Option.some.inj hc
    decide +kernel
  simp only [readFormatText, takeWhile_run hf hclose, dropWhile_run hf hclose]

theorem readFormat_section {f : Option Text} (hf : ∀ t ∈ f, ∀ c ∈ t, isFormatChar c) :
    readFormat start offset (formatSection f ++ '\x7d' :: rest)
      = .ok (f.filter (!·.isEmpty), formatSection f, '\x7d' :: rest) := by
  cases f with
  | none => rfl
  | some t =>
    have hread : readFormatText start (offset + 1) (t ++ '\x7d' :: rest) = .ok (t, '\x7d' :: rest) :=
      readFormatText_run start (offset + 1) (hf t rfl)
    show (readFormatText start (offset + 1) (t ++ '\x7d' :: rest)).bind _ = _
    rw [hread]
    cases t <;> rfl

theorem head?_formatSection_append (f : Option Text) :
    ∀ c ∈ (formatSection f ++ '\x7d' :: rest).head?, c.isDigit = false ∧ c ≠ ',' := by
  intro c hc
  cases f with
  | none =>
    obtain rfl := Option.some.inj hc
    decide
  | some t =>
    obtain rfl := Option.some.inj hc
    decide

theorem head?_spanSection_append (w : Option Numeral) (f : Option Text) :
    ∀ c ∈ (spanSection w ++ (formatSection f ++ '\x7d' :: rest)).head?, c.isDigit = false := by
  intro c hc
  cases w with
  | none => exact (head?_formatSection_append f c hc).1
  | some n =>
    obtain rfl := Option.some.inj hc
    decide

/-- The text behind the opening brace of a written form is read as its anchor. -/
theorem read_form (f : Form limit) :
    read limit start
        (f.index.text ++ (spanSection f.span ++ (formatSection f.format ++ '\x7d' :: rest)))
      = .ok (f.anchor, rest) := by
  have hindex : UInt64.ofNat f.index.value = f.anchor.index :=
    (UInt64.ofNatLT_eq_ofNat f.index.value).symm
  have hspan : Int32.ofInt (spanValue f.span) = f.anchor.span :=
    (Int32.ofIntLE_eq_ofInt f.spanValue_range.1 f.spanValue_range.2).symm
  simp only [read, bind, Except.bind,
    readIndex_digits start f.index_le (head?_spanSection_append f.span f.format),
    readSpan_section start _ f.span_range (head?_formatSection_append f.format),
    readFormat_section start _ f.format_chars, readEnd, hindex, hspan]
  rfl

end

/-! ## what is read was written -/

section
variable {limit : UInt64} {start offset : Nat} {t used rest : Text}

theorem exists_digits_of_readIndex {index : UInt64}
    (h : readIndex limit start t = .ok (index, used, rest)) :
    ∃ d : Digits, d.value ≤ limit.toNat ∧ d.text = used ∧ index = .ofNat d.value := by
  obtain ⟨hne, hle, rfl, rfl, -⟩ := readIndex_inv h
  have hvalue : Text.value (t.takeWhile Char.isDigit) = (Digits.front t hne).value :=
    (Digits.front t hne).value_text
  rw [hvalue] at hle ⊢
  exact ⟨Digits.front t hne, hle, rfl, rfl⟩

theorem exists_numeral_of_readWidth {width : Int32}
    (h : readWidth start offset t = .ok (width, used, rest)) :
    ∃ n : Numeral, (Int32.minValue.toInt ≤ n.value ∧ n.value ≤ Int32.maxValue.toInt) ∧
      n.text = used ∧ width = .ofInt n.value := by
  obtain ⟨hne, hrange, rfl, hused, -⟩ := readWidth_inv h
  obtain ⟨n, hsign, hdigits⟩ := exists_sign t (Digits.front (unsigned t) hne)
  have htext : n.text = used := by
    rw [Numeral.text, hsign, hdigits, hused]
    rfl
  rw [← htext, signedValue_numeral] at hrange ⊢
  exact ⟨n, hrange, rfl, rfl⟩

theorem exists_section_of_readSpan {span : Int32}
    (h : readSpan start offset t = .ok (span, used, rest)) :
    ∃ w : Option Numeral,
      (∀ n ∈ w, Int32.minValue.toInt ≤ n.value ∧ n.value ≤ Int32.maxValue.toInt) ∧
      spanSection w = used ∧ span = .ofInt (spanValue w) := by
  rcases readSpan_cases h with ⟨u, written, -, hwidth, rfl⟩ | ⟨rfl, rfl, -⟩
  · obtain ⟨n, hrange, htext, hvalue⟩ := exists_numeral_of_readWidth hwidth
    refine ⟨some n, fun n' hn' => ?_, congrArg (',' :: ·) htext, hvalue⟩
    obtain rfl := Option.some.inj hn'
    exact hrange
  · exact ⟨none, fun n hn => (by cases hn), rfl, rfl⟩

theorem formatChars_of_readFormatText (h : readFormatText start offset t = .ok (used, rest)) :
    ∀ c ∈ used, isFormatChar c := by
  obtain ⟨rfl, -⟩ := readFormatText_inv h
  exact fun c hc => List.all_eq_true.mp List.all_takeWhile c hc

theorem exists_section_of_readFormat {format : Option Text}
    (h : readFormat start offset t = .ok (format, used, rest)) :
    ∃ f : Option Text, (∀ u ∈ f, ∀ c ∈ u, isFormatChar c) ∧ formatSection f = used ∧
      format = f.filter (!·.isEmpty) := by
  rcases readFormat_cases h with ⟨u, written, -, hformat, rfl, rfl⟩ | ⟨rfl, rfl, -⟩
  · refine ⟨some written, fun u' hu' => ?_, rfl, ?_⟩
    · obtain rfl := Option.some.inj hu'
      exact formatChars_of_readFormatText hformat
    · cases written <;> rfl
  · exact ⟨none, fun u hu => (by cases hu), rfl, rfl⟩

/-- What is read as an anchor has a form. -/
theorem exists_form_of_read {a : Anchor} (h : read limit start t = .ok (a, rest)) :
    ∃ f : Form limit, f.anchor = a := by
  obtain ⟨index, digits, t₁, span, width, t₂, format, tail, t₃, _, _, _, hindex, hspan, hformat, -,
    rfl⟩ := exists_sections_of_read h
  obtain ⟨d, hd, rfl, rfl⟩ := exists_digits_of_readIndex hindex
  obtain ⟨w, hw, rfl, rfl⟩ := exists_section_of_readSpan hspan
  obtain ⟨f, hf, rfl, rfl⟩ := exists_section_of_readFormat hformat
  refine ⟨⟨d, hd, w, hw, f, hf⟩, ?_⟩
  rw [Form.anchor, UInt64.ofNatLT_eq_ofNat, Int32.ofIntLE_eq_ofInt]
  rfl

end

end Anchor

end FormatInverse
