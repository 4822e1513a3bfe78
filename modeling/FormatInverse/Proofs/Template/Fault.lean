import FormatInverse.Proofs.Template.Segment
import FormatInverse.Proofs.Text.Utf8
import Mathlib

/-!
# Where a template text is at fault

An error that cutting into tokens answers names a byte of the text.  A brace in front of it, or at
it, begins what is at fault: everything before this brace can be cut into tokens, and what the error
says is about the text from the brace on.

Each reader of an anchor answers with errors of which this holds, given that the placeholder's
opening brace stands in the text in front of what it reads (`Locates`); and the error of a whole
text is that of the first token that cannot be read (`exists_first_of_tokensFrom_error`).
-/

namespace FormatInverse

namespace TemplateError

open Text (bytes)

/-- the brace that begins what is at fault -/
def opening : TemplateError → Char
  | unbalancedBrace _ => '\x7d'
  | _ => '\x7b'

/-- What an error says about the text `t`, where the part at fault begins at byte `start` and no
index may be above `limit`. -/
def Describes (limit : UInt64) (t : Text) (start : Nat) : TemplateError → Prop
  | unexpectedCharacter offset found _ => t.At offset found
  | invalidSpan offset _ => ∃ comma, t.At comma ',' ∧ offset = comma + 1
  | invalidFormatCharacter offset found =>
    t.At offset found ∧ found ≠ '\x7d' ∧ Anchor.isFormatChar found = false
  | unterminatedPlaceholder offset => offset = start
  | unbalancedBrace offset => offset = start
  | indexOutOfRange offset digits most =>
    offset = start + 1 ∧ most = limit ∧
      ∃ d : Anchor.Digits, d.text = digits ∧ limit.toNat < d.value ∧
        ∃ a b, t = a ++ digits ++ b ∧ offset = bytes a ∧ ∀ c ∈ b.head?, c.isDigit = false

/-- The error is about the part of `t` that begins at byte `start`. -/
structure Locates (limit : UInt64) (t : Text) (start : Nat) (e : TemplateError) : Prop where
  opens : t.At start e.opening
  start_le : start ≤ e.offset
  inside : ∃ c, t.At e.offset c
  describes : e.Describes limit t start

end TemplateError

namespace Anchor

open Text (bytes)
open TemplateError (Locates)

/-! ## the errors of the readers -/

/-- An index is missing, or it is a run of digits with a value above the limit. -/
theorem readIndex_error_cases {limit : UInt64} {start : Nat} {u : Text} {e : TemplateError}
    (h : readIndex limit start u = .error e) :
    e = fault start (start + 1) .indexDigit u ∨
    ∃ (d : Digits) (rest : Text), u = d.text ++ rest ∧ (∀ c ∈ rest.head?, c.isDigit = false) ∧
      limit.toNat < d.value ∧ e = .indexOutOfRange (start + 1) d.text limit := by
  have hu : u.takeWhile Char.isDigit ++ u.dropWhile Char.isDigit = u :=
    List.takeWhile_append_dropWhile
  simp only [readIndex] at h
  split at h
  · next hempty =>
    rw [List.isEmpty_iff] at hempty
    rw [hempty, List.nil_append] at hu
    rw [hu] at h
    cases h
    exact Or.inl rfl
  · next hne =>
    rw [List.isEmpty_iff] at hne
    split at h
    · cases h
    · next hlimit =>
      cases h
      have hvalue : Text.value (u.takeWhile Char.isDigit) = (Digits.front u hne).value :=
        (Digits.front u hne).value_text
      rw [hvalue] at hlimit
      exact Or.inr ⟨Digits.front u hne, u.dropWhile Char.isDigit, hu.symm,
        fun c hc => eq_false_of_head?_dropWhile hc, Nat.lt_of_not_le hlimit, rfl⟩

section
-- the text `u` is read behind `p`, in which a placeholder opens at `start`
variable {limit : UInt64} {t p u : Text} {start : Nat} {e : TemplateError}
  (hopen : t.At start '\x7b') (hstart : start < bytes p) (ht : t = p ++ u)
include hopen

theorem locates_unterminated : Locates limit t start (.unterminatedPlaceholder start) where
  opens := hopen
  start_le := Nat.le_refl start
  inside := ⟨'\x7b', hopen⟩
  describes := rfl

include hstart ht

theorem locates_fault (expected : Expected) :
    Locates limit t start (fault start (bytes p) expected u) := by
  cases u with
  | nil => exact locates_unterminated hopen
  | cons c u =>
    have hc : t.At (bytes p) c := ⟨p, u, ht, rfl⟩
    exact ⟨hopen, Nat.le_of_lt hstart, ⟨c, hc⟩, hc⟩

theorem locates_of_readIndex (hp : bytes p = start + 1)
    (h : readIndex limit start u = .error e) : Locates limit t start e := by
  rcases readIndex_error_cases h with rfl | ⟨d, rest, rfl, hend, hlimit, rfl⟩
  · rw [← hp]
    exact locates_fault hopen hstart ht .indexDigit
  · have hne : d.text ++ rest ≠ [] := List.append_ne_nil_of_left_ne_nil d.ne_nil rest
    have hat := (Text.eq_nil_or_at ht).resolve_left hne
    have hcut : t = p ++ d.text ++ rest := by rw [ht, List.append_assoc]
    rw [hp] at hat
    exact ⟨hopen, Nat.le_succ start, hat, rfl, rfl, d, rfl, hlimit, p, rest, hcut, hp.symm, hend⟩

theorem locates_of_readWidth {comma : Nat} (hcomma : t.At comma ',') (hp : bytes p = comma + 1)
    (h : readWidth start (bytes p) u = .error e) : Locates limit t start e := by
  rcases Text.eq_nil_or_at ht with rfl | hat
  · cases h
    exact locates_unterminated hopen
  · have hspan : ∀ f, Locates limit t start (.invalidSpan (bytes p) f) := fun f =>
      ⟨hopen, Nat.le_of_lt hstart, hat, comma, hcomma, hp⟩
    simp only [readWidth] at h
    split at h
    · split at h
      · cases h
        exact locates_unterminated hopen
      · cases h
        exact hspan _
    · split at h
      · cases h
      · cases h
        exact hspan _

theorem locates_of_readSpan (h : readSpan start (bytes p) u = .error e) :
    Locates limit t start e := by
  unfold readSpan at h
  split at h
  · next v =>
    have hp : bytes (p ++ [',']) = bytes p + 1 := Text.bytes_append p [',']
    have hcomma : t.At (bytes p) ',' := ⟨p, v, ht, rfl⟩
    have hv : t = p ++ [','] ++ v := ht.trans (List.append_cons p ',' v)
    rcases bind_eq_error.mp h with hwidth | ⟨r, -, hr⟩
    · rw [← hp] at hwidth
      exact locates_of_readWidth hopen (by omega) hv hcomma hp hwidth
    · cases hr
  · cases h

theorem locates_of_readFormatText (h : readFormatText start (bytes p) u = .error e) :
    Locates limit t start e := by
  simp only [readFormatText] at h
  have hu : u.takeWhile isFormatChar ++ u.dropWhile isFormatChar = u :=
    List.takeWhile_append_dropWhile
  split at h
  · cases h
    exact locates_unterminated hopen
  · cases h
  · next c rest hclose hrest =>
    cases h
    rw [hrest] at hu
    have hc : isFormatChar c = false := by
      have hstop : c ∈ (u.dropWhile isFormatChar).head? := by
        rw [hrest]
        rfl
      exact eq_false_of_head?_dropWhile hstop
    have hat : t.At (bytes p + bytes (u.takeWhile isFormatChar)) c := by
      refine ⟨p ++ u.takeWhile isFormatChar, rest, ?_, (Text.bytes_append _ _).symm⟩
      rw [ht, List.append_assoc, hu]
    refine ⟨hopen, ?_, ⟨c, hat⟩, hat, hclose, hc⟩
    show start ≤ bytes p + bytes (u.takeWhile isFormatChar)
    omega

theorem locates_of_readFormat (h : readFormat start (bytes p) u = .error e) :
    Locates limit t start e := by
  unfold readFormat at h
  split at h
  · next v =>
    have hp : bytes (p ++ [':']) = bytes p + 1 := Text.bytes_append p [':']
    have hv : t = p ++ [':'] ++ v := ht.trans (List.append_cons p ':' v)
    rcases bind_eq_error.mp h with hformat | ⟨r, -, hr⟩
    · rw [← hp] at hformat
      exact locates_of_readFormatText hopen (by omega) hv hformat
    · cases hr
  · cases h

theorem locates_of_readEnd (h : readEnd start (bytes p) u = .error e) :
    Locates limit t start e := by
  unfold readEnd at h
  split at h
  · cases h
  · cases h
    exact locates_fault hopen hstart ht .sectionOrEnd

end

theorem locates_of_read {limit : UInt64} {t p u : Text} {start : Nat} {e : TemplateError}
    (hopen : t.At start '\x7b') (hp : bytes p = start + 1) (ht : t = p ++ u)
    (h : read limit start u = .error e) : Locates limit t start e := by
  unfold read at h
  -- the offset of each reader is the number of bytes that the readers before it left behind them
  rcases bind_eq_error.mp h with hindex | ⟨⟨index, digits, t₁⟩, hindex, h⟩
  · exact locates_of_readIndex hopen (by omega) ht hp hindex
  have hp₁ : bytes (p ++ digits) = start + 1 + bytes digits := by rw [Text.bytes_append, hp]
  have ht₁ : t = p ++ digits ++ t₁ := by rw [ht, readIndex_eq_append hindex, List.append_assoc]
  simp only [← hp₁] at h
  rcases bind_eq_error.mp h with hspan | ⟨⟨span, width, t₂⟩, hspan, h⟩
  · exact locates_of_readSpan hopen (by omega) ht₁ hspan
  have ht₂ : t = p ++ digits ++ width ++ t₂ := by
    rw [ht₁, readSpan_eq_append hspan, List.append_assoc (p ++ digits)]
  simp only [← Text.bytes_append] at h
  rcases bind_eq_error.mp h with hformat | ⟨⟨format, tail, t₃⟩, hformat, h⟩
  · refine locates_of_readFormat hopen ?_ ht₂ hformat
    rw [Text.bytes_append]
    omega
  have ht₃ : t = p ++ digits ++ width ++ tail ++ t₃ := by
    rw [ht₂, readFormat_eq_append hformat, List.append_assoc (p ++ digits ++ width)]
  rcases bind_eq_error.mp h with hend | ⟨rest, -, hrest⟩
  · refine locates_of_readEnd hopen ?_ ht₃ hend
    rw [Text.bytes_append, Text.bytes_append]
    omega
  · cases hrest

end Anchor

open Text (bytes)
open TemplateError (Locates)

variable {limit : UInt64} {offset : Nat} {t : Text} {e : TemplateError}

theorem Token.locates_of_first {p rest : Text} {c : Char} (ht : t = p ++ c :: rest)
    (h : first limit (bytes p) c rest = .error e) : Locates limit t (bytes p) e := by
  have hat : t.At (bytes p) c := ⟨p, rest, ht, rfl⟩
  unfold first at h
  split at h
  · next hopen =>
    subst hopen
    split at h
    · cases h
    · cases hread : Anchor.read limit (bytes p) rest with
      | ok r =>
        rw [hread] at h
        cases h
      | error e' =>
        rw [hread] at h
        cases h
        have hp : bytes (p ++ ['\x7b']) = bytes p + 1 := Text.bytes_append p ['\x7b']
        have hrest : t = p ++ ['\x7b'] ++ rest := ht.trans (List.append_cons p '\x7b' rest)
        exact Anchor.locates_of_read hat hp hrest hread
  · split at h
    · next hclose =>
      subst hclose
      split at h
      · cases h
      · cases h
        exact ⟨hat, Nat.le_refl _, ⟨_, hat⟩, rfl⟩
    · cases h

/-! ## the whole text -/

/-- The error is that of one token, and all in front of this token is written from segments. -/
theorem exists_first_of_tokensFrom_error (h : tokensFrom limit offset t = .error e) :
    ∃ (segments : List (Segment limit)) (c : Char) (rest : Text),
      t = Segment.print segments ++ c :: rest ∧
      Token.first limit (offset + bytes (Segment.print segments)) c rest = .error e := by
  induction hn : t.length using Nat.strongRecOn generalizing offset t with
  | ind n ih =>
    cases t with
    | nil =>
      rw [tokensFrom] at h
      cases h
    | cons c rest =>
      rcases tokensFrom_error_cases h with hfirst | ⟨tok, after, hfirst, hafter⟩
      · exact ⟨[], c, rest, rfl, hfirst⟩
      · have hlt : after.length < n := by
          rw [← hn]
          exact Token.length_of_first hfirst
        obtain ⟨segments, d, rest', rfl, hfault⟩ := ih after.length hlt hafter rfl
        have hsource := Token.first_eq_append hfirst
        obtain ⟨s, rfl⟩ := Token.exists_segment_of_first hfirst
        rw [Segment.source_token] at hsource hfault
        refine ⟨s :: segments, d, rest', ?_, ?_⟩
        · rw [hsource, Segment.print_cons, List.append_assoc]
        · rw [Segment.print_cons, Text.bytes_append, ← Nat.add_assoc]
          exact hfault

/-- A text that cannot be cut into tokens has a brace such that all before it can be.  The byte that
the error names begins a character at this brace or behind it, and what the error says of the text
from the brace on is so. -/
theorem tokens_fault (h : tokens limit t = .error e) :
    Text.Boundary t e.offset ∧ e.offset < bytes t ∧
    ∃ before rest, t = before ++ e.opening :: rest ∧ (∃ toks, tokens limit before = .ok toks) ∧
      bytes before ≤ e.offset ∧ e.Describes limit t (bytes before) := by
  obtain ⟨segments, c, rest, ht, hfirst⟩ := exists_first_of_tokensFrom_error h
  rw [Nat.zero_add] at hfirst
  have hlocates := Token.locates_of_first ht hfirst
  obtain ⟨hboundary, hlt⟩ := Text.exists_at_iff.mp hlocates.inside
  have hopens := hlocates.opens
  rw [ht] at hopens
  obtain ⟨rest', hrest'⟩ := hopens.exists_cons
  rw [hrest'] at ht
  obtain ⟨toks, htoks, -⟩ := tokens_print segments
  exact ⟨hboundary, hlt, Segment.print segments, rest', ht, ⟨toks, htoks⟩, hlocates.start_le,
    hlocates.describes⟩

/-- a character of two bytes, a doubled brace and an anchor, and a placeholder with the letter `ö`
in its format and `!` behind it -/
def faultyText : Text := "é\x7b\x7b\x7b0\x7d\x7b7,-2:ö!\x7d".toList

-- every character of the format is looked up in the table of letters and digits
set_option maxRecDepth 2000 in
theorem tokens_fault_faultyText :
    tokens 9 faultyText = .error (.invalidFormatCharacter 15 '!') ∧
    ∃ before rest, faultyText = before ++ '\x7b' :: rest ∧
      (∃ toks, tokens 9 before = .ok toks) ∧ bytes before ≤ 15 ∧ faultyText.At 15 '!' := by
  have herror : tokens 9 faultyText = .error (.invalidFormatCharacter 15 '!') := by cbv
  obtain ⟨-, -, before, rest, ht, htoks, hle, hat, -, -⟩ := tokens_fault herror
  exact ⟨herror, before, rest, ht, htoks, hle, hat⟩

end FormatInverse
