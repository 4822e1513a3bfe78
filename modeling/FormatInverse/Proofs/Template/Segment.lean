import FormatInverse.Proofs.Template.Form
import FormatInverse.Proofs.Template.Token
import Mathlib

/-!
# Writing a template text and cutting it into tokens

A template text is written from segments, literal texts and forms of anchors.  Cutting it into
tokens gives the segments back, each placeholder with its place in the text; only where a literal
text ends and the next one begins cannot be seen any more, and `Token.merged` forgets it.

* `tokens_print`         what is written from segments is cut into the tokens of these segments;
* `tokens_grammatical`   nothing else can be cut into tokens, and no character is lost or moved.
-/

namespace FormatInverse

/-- a part of a template text, where the indices are at most `limit` -/
inductive Segment (limit : UInt64) where
  | literal (text : Text)
  | placeholder (form : Anchor.Form limit)

namespace Segment

variable {limit : UInt64}

/-- the segment as it is written -/
def text : Segment limit → Text
  | literal t => Token.doubled t
  | placeholder f => f.text

/-- the template text of a list of segments -/
def print (segments : List (Segment limit)) : Text := segments.flatMap text

/-- the token of a segment that stands at byte `offset` -/
def token (offset : Nat) : Segment limit → Token
  | literal t => .literal t
  | placeholder f => .placeholder offset f.anchor

/-- the tokens of segments that stand from byte `offset` on -/
def tokensAt (offset : Nat) : List (Segment limit) → List Token
  | [] => []
  | s :: rest => s.token offset :: tokensAt (offset + Text.bytes s.text) rest

theorem print_cons (s : Segment limit) (segments : List (Segment limit)) :
    print (s :: segments) = s.text ++ print segments := List.flatMap_cons

theorem source_token (offset : Nat) (s : Segment limit) : (s.token offset).source = s.text := by
  cases s <;> rfl

end Segment

namespace Token

/-! ## merging literals -/

/-- The literal text `t` in front of tokens, one literal with the text that they begin with. -/
def literalBefore (t : Text) : List Token → List Token
  | literal u :: rest => literal (t ++ u) :: rest
  | toks => if t.isEmpty then toks else literal t :: toks

/-- The tokens with neighbouring literals put together, and no literal without text. -/
def merged : List Token → List Token
  | [] => []
  | literal t :: rest => literalBefore t (merged rest)
  | placeholder offset a :: rest => placeholder offset a :: merged rest

theorem literalBefore_nil (toks : List Token) : literalBefore [] toks = toks := by
  unfold literalBefore
  split <;> rfl

theorem literalBefore_append (s t : Text) (toks : List Token) :
    literalBefore (s ++ t) toks = literalBefore s (literalBefore t toks) := by
  match toks with
  | literal u :: rest =>
    show literal (s ++ t ++ u) :: rest = literal (s ++ (t ++ u)) :: rest
    rw [List.append_assoc]
  | [] =>
    cases t with
    | nil => rw [List.append_nil, literalBefore_nil]
    | cons c t =>
      cases s <;> rfl
  | placeholder offset a :: rest =>
    cases t with
    | nil => rw [List.append_nil, literalBefore_nil]
    | cons c t =>
      cases s <;> rfl

/-! ## the first token -/

section
variable {limit : UInt64} {offset : Nat} {c : Char} {rest : Text}

theorem first_of_brace (hc : isBrace c = true) :
    first limit offset c (c :: rest) = .ok (literal [c], rest) := by
  rw [isBrace, Bool.or_eq_true, beq_iff_eq, beq_iff_eq] at hc
  rcases hc with rfl | rfl <;> rfl

theorem first_of_plain (hc : isBrace c = false) :
    first limit offset c rest
      = .ok (literal (c :: rest.takeWhile (!isBrace ·)), rest.dropWhile (!isBrace ·)) := by
  simp only [isBrace, Bool.or_eq_false_iff, beq_eq_false_iff_ne] at hc
  unfold first
  rw [if_neg hc.1, if_neg hc.2]

/-- An opening brace with a digit behind it begins an anchor. -/
theorem first_of_form (f : Anchor.Form limit) (rest : Text) :
    first limit offset '\x7b' (f.index.text ++
        (Anchor.spanSection f.span ++ (Anchor.formatSection f.format ++ '\x7d' :: rest)))
      = .ok (placeholder offset f.anchor, rest) := by
  unfold first
  rw [if_pos rfl]
  split
  · next heq => exact absurd heq (f.index.append_ne_cons rfl _ _)
  · rw [Anchor.read_form]
    rfl

theorem exists_segment_of_first {tok : Token} {after : Text}
    (h : first limit offset c rest = .ok (tok, after)) :
    ∃ s : Segment limit, s.token offset = tok := by
  rcases first_cases h with ⟨-, -, rfl⟩ | ⟨-, a, hread, rfl⟩ | ⟨-, -, rfl⟩
  · exact ⟨.literal _, rfl⟩
  · obtain ⟨f, rfl⟩ := Anchor.exists_form_of_read hread
    exact ⟨.placeholder f, rfl⟩
  · exact ⟨.literal _, rfl⟩

end

end Token

open Token (merged literalBefore doubled isBrace)

variable {limit : UInt64} {offset : Nat} {t : Text} {toks : List Token}

/-! ## what is written is cut into its segments -/

/-- Tokens begin with the text before the first brace. -/
theorem exists_merged_of_run (h : tokensFrom limit offset t = .ok toks) :
    ∃ toks', tokensFrom limit (offset + Text.bytes (t.takeWhile (!isBrace ·)))
        (t.dropWhile (!isBrace ·)) = .ok toks' ∧
      merged toks = literalBefore (t.takeWhile (!isBrace ·)) (merged toks') := by
  cases t with
  | nil => exact ⟨toks, h, (Token.literalBefore_nil _).symm⟩
  | cons c t =>
    cases hc : isBrace c with
    | true =>
      have hneg : ¬ (!isBrace c) = true := by rw [hc]; exact Bool.false_ne_true
      rw [List.takeWhile_cons_of_neg (p := (!isBrace ·)) hneg,
        List.dropWhile_cons_of_neg (p := (!isBrace ·)) hneg]
      exact ⟨toks, h, (Token.literalBefore_nil _).symm⟩
    | false =>
      have hpos : (!isBrace c) = true := by rw [hc]; rfl
      obtain ⟨tok, after, toks', hfirst, hrest, rfl⟩ := exists_cons_of_tokensFrom h
      rw [Token.first_of_plain hc] at hfirst
      cases hfirst
      rw [Token.source, Token.doubled_run hc] at hrest
      rw [List.takeWhile_cons_of_pos (p := (!isBrace ·)) hpos,
        List.dropWhile_cons_of_pos (p := (!isBrace ·)) hpos]
      exact ⟨toks', hrest, rfl⟩

/-- One more character of literal text in front. -/
theorem exists_merged_char (c : Char)
    (h : tokensFrom limit (offset + Text.bytes (doubled [c])) t = .ok toks) :
    ∃ toks', tokensFrom limit offset (doubled [c] ++ t) = .ok toks' ∧
      merged toks' = literalBefore [c] (merged toks) := by
  cases hc : isBrace c with
  | true =>
    refine ⟨.literal [c] :: toks, ?_, rfl⟩
    rw [Token.doubled_of_brace hc]
    exact tokensFrom_cons (Token.first_of_brace hc) h
  | false =>
    -- the character joins the run in front of the next brace
    obtain ⟨toks', hrest, hmerged⟩ := exists_merged_of_run h
    refine ⟨.literal (c :: t.takeWhile (!isBrace ·)) :: toks', ?_, ?_⟩
    · have hself : doubled [c] = [c] := Token.doubled_run hc []
      rw [hself] at hrest ⊢
      refine tokensFrom_cons (Token.first_of_plain hc) ?_
      rw [Token.source, Token.doubled_run hc, Text.bytes_cons, ← Nat.add_assoc]
      exact hrest
    · rw [hmerged, ← Token.literalBefore_append]
      rfl

/-- A literal text in front. -/
theorem exists_merged_literal (s : Text)
    (h : tokensFrom limit (offset + Text.bytes (doubled s)) t = .ok toks) :
    ∃ toks', tokensFrom limit offset (doubled s ++ t) = .ok toks' ∧
      merged toks' = literalBefore s (merged toks) := by
  induction s generalizing offset with
  | nil => exact ⟨toks, h, (Token.literalBefore_nil _).symm⟩
  | cons c s ih =>
    rw [Token.doubled_cons, Text.bytes_append, ← Nat.add_assoc] at h
    obtain ⟨toks₁, hs, hmerged₁⟩ := ih h
    obtain ⟨toks₂, hc, hmerged₂⟩ := exists_merged_char c hs
    refine ⟨toks₂, ?_, ?_⟩
    · rw [Token.doubled_cons, List.append_assoc]
      exact hc
    · rw [hmerged₂, hmerged₁, ← Token.literalBefore_append]
      rfl

theorem tokensFrom_print (segments : List (Segment limit)) (offset : Nat) :
    ∃ toks, tokensFrom limit offset (Segment.print segments) = .ok toks ∧
      merged toks = merged (Segment.tokensAt offset segments) := by
  induction segments generalizing offset with
  | nil =>
    refine ⟨[], ?_, rfl⟩
    rw [Segment.print, List.flatMap_nil, tokensFrom]
  | cons s segments ih =>
    obtain ⟨toks, hrest, hmerged⟩ := ih (offset + Text.bytes s.text)
    rw [Segment.print_cons]
    cases s with
    | literal t =>
      obtain ⟨toks', htoks', hmerged'⟩ := exists_merged_literal t hrest
      refine ⟨toks', htoks', ?_⟩
      rw [hmerged', hmerged]
      rfl
    | placeholder f =>
      refine ⟨.placeholder offset f.anchor :: toks, ?_, congrArg (_ :: ·) hmerged⟩
      show tokensFrom limit offset (f.text ++ Segment.print segments) = _
      rw [f.text_append]
      exact tokensFrom_cons (Token.first_of_form f _) hrest

/-- Every text that the grammar allows is cut into tokens, and these are its segments: the literal
texts without their doubled braces, and for each form its anchor, at the byte where it is
written. -/
theorem tokens_print (segments : List (Segment limit)) :
    ∃ toks, tokens limit (Segment.print segments) = .ok toks ∧
      merged toks = merged (Segment.tokensAt 0 segments) :=
  tokensFrom_print segments 0

example : tokens 9 "\x7b\x7b\x7b0\x7d\x7d\x7d".toList
    = .ok [.literal ['\x7b'], .placeholder 2 ⟨"\x7b0\x7d".toList, 0, 0, none⟩, .literal ['\x7d']] := by
  cbv

/-! ## what is cut into tokens was written -/

theorem exists_segments_of_tokensFrom (h : tokensFrom limit offset t = .ok toks) :
    ∃ segments : List (Segment limit), Segment.tokensAt offset segments = toks := by
  induction toks generalizing offset t with
  | nil => exact ⟨[], rfl⟩
  | cons tok toks ih =>
    cases t with
    | nil =>
      rw [tokensFrom] at h
      cases h
    | cons c rest =>
      obtain ⟨tok', after, toks', hfirst, hrest, htoks⟩ := exists_cons_of_tokensFrom h
      cases htoks
      obtain ⟨s, rfl⟩ := Token.exists_segment_of_first hfirst
      rw [Segment.source_token] at hrest
      obtain ⟨segments, rfl⟩ := ih hrest
      exact ⟨s :: segments, rfl⟩

/-- A placeholder among the tokens of segments stands behind the sources of the tokens before. -/
theorem Segment.placeholder_of_tokensAt {segments : List (Segment limit)} {before after : List Token}
    {start : Nat} {a : Anchor}
    (h : tokensAt start segments = before ++ .placeholder offset a :: after) :
    (∃ f : Anchor.Form limit, f.anchor = a) ∧
      offset = start + Text.bytes (before.flatMap Token.source) := by
  induction before generalizing start segments with
  | nil =>
    cases segments with
    | nil => cases h
    | cons s segments =>
      cases s with
      | literal t => cases h
      | placeholder f =>
        cases h
        exact ⟨⟨f, rfl⟩, rfl⟩
  | cons tok before ih =>
    cases segments with
    | nil => cases h
    | cons s segments =>
      obtain ⟨rfl, hrest⟩ := List.cons.inj h
      obtain ⟨hform, hoffset⟩ := ih hrest
      refine ⟨hform, ?_⟩
      rw [hoffset, List.flatMap_cons, Text.bytes_append, source_token, Nat.add_assoc]

/-- The sources of the tokens make up the text, every anchor has a form, and every placeholder
names the byte of the text where its anchor stands. -/
theorem tokens_grammatical (h : tokens limit t = .ok toks) :
    toks.flatMap Token.source = t ∧
    ∀ before offset a after, toks = before ++ .placeholder offset a :: after →
      (∃ f : Anchor.Form limit, f.anchor = a) ∧
      offset = Text.bytes (before.flatMap Token.source) ∧
      Text.slice? t offset (offset + Text.bytes a.text) = some a.text := by
  have hsource := (flatMap_source_of_tokensFrom h).1
  refine ⟨hsource, fun before offset a after htoks => ?_⟩
  obtain ⟨segments, hsegments⟩ := exists_segments_of_tokensFrom h
  obtain ⟨hform, hoffset⟩ := Segment.placeholder_of_tokensAt (hsegments.trans htoks)
  rw [Nat.zero_add] at hoffset
  refine ⟨hform, hoffset, ?_⟩
  have ht : t = before.flatMap Token.source ++ a.text ++ after.flatMap Token.source := by
    rw [← hsource, htoks, List.flatMap_append, List.flatMap_cons, ← List.append_assoc]
    rfl
  rw [hoffset, ht]
  exact Text.slice?_middle _ _ _

/-- a text with a character of two bytes, doubled braces beside an anchor, and all sections -/
def mixedText : Text := "é\x7b\x7b\x7b10,-3:00\x7d\x7d\x7d".toList

def mixedToks : List Token :=
  [.literal ['é'], .literal ['\x7b'],
    .placeholder 4 ⟨"\x7b10,-3:00\x7d".toList, 10, -3, some "00".toList⟩, .literal ['\x7d']]

-- every character of the format is looked up in the table of letters and digits
set_option maxRecDepth 2000 in
theorem tokens_mixedText : tokens 99 mixedText = .ok mixedToks := by cbv

theorem tokens_grammatical_mixedText :
    tokens 99 mixedText = .ok mixedToks ∧
    mixedToks.flatMap Token.source = mixedText ∧
    ∀ before offset a after, mixedToks = before ++ .placeholder offset a :: after →
      (∃ f : Anchor.Form 99, f.anchor = a) ∧
      offset = Text.bytes (before.flatMap Token.source) ∧
      Text.slice? mixedText offset (offset + Text.bytes a.text) = some a.text :=
  ⟨tokens_mixedText, tokens_grammatical tokens_mixedText⟩

end FormatInverse
