import FormatInverse.Calendar.Parse
import FormatInverse.Proofs.Calendar.Part

/-!
# Custom hints in numbers

A hint of letters for the numbers of a date-time and of other characters (`IsNumericHint`) has the
parts of the hint as its format (`format?_hint`), so what is written through the hint is read back
by it (`parse?_hint`).
-/

namespace FormatInverse.Calendar

open Hint (Piece pieces? addLetter addPiece? isQuote)

variable {c : Char} {t : DateTime} {p : Part} {ps : List Part} {qs : List Piece} {rest : Text}

/-! ## hints of parts -/

/-- the letter that stands for a field in a hint -/
def Numeric.letter : Numeric → Char
  | year => 'y'
  | month => 'M'
  | day => 'd'
  | hour => 'H'
  | minute => 'm'
  | second => 's'

/-- a part as a hint writes it, a field with one letter for each of its digits -/
def Part.hint : Part → Text
  | field u => List.replicate u.width u.letter
  | literal c => [c]

/-- a character that stands for itself in a hint -/
def IsPlain (c : Char) : Prop := Hint.isLetter c = false ∧ isQuote c = false ∧ c ≠ '\\' ∧ c ≠ '%'

instance (c : Char) : Decidable (IsPlain c) := by
  unfold IsPlain
  infer_instance

/-- The parts of a hint: a date, a time of day or none, and characters that stand for themselves. -/
structure IsNumericHint (ps : List Part) : Prop where
  literal : ∀ c, .literal c ∈ ps → IsPlain c
  year : ps.count (.field .year) = 1
  month : ps.count (.field .month) = 1
  day : ps.count (.field .day) = 1
  /-- an hour and a minute, or neither -/
  clock : (ps.count (.field .hour) = 1 ∧ ps.count (.field .minute) = 1) ∨
    (ps.count (.field .hour) = 0 ∧ ps.count (.field .minute) = 0)
  /-- a second only with an hour -/
  second : ps.count (.field .second) ≤ ps.count (.field .hour)

theorem IsNumericHint.count_le_one (h : IsNumericHint ps) (u : Numeric) :
    ps.count (.field u) ≤ 1 := by
  have hsecond := h.second
  cases u with
  | year => exact h.year.le
  | month => exact h.month.le
  | day => exact h.day.le
  | hour => rcases h.clock with ⟨h₁, -⟩ | ⟨h₁, -⟩ <;> omega
  | minute => rcases h.clock with ⟨-, h₁⟩ | ⟨-, h₁⟩ <;> omega
  | second => rcases h.clock with ⟨h₁, -⟩ | ⟨h₁, -⟩ <;> omega

theorem IsNumericHint.hasDate (h : IsNumericHint ps) : HasDate (numerics ps) := by
  refine ⟨?_, ?_, ?_⟩
  · exact mem_numerics.mpr (List.count_pos_iff.mp (by rw [h.year]; exact Nat.one_pos))
  · exact mem_numerics.mpr (List.count_pos_iff.mp (by rw [h.month]; exact Nat.one_pos))
  · exact mem_numerics.mpr (List.count_pos_iff.mp (by rw [h.day]; exact Nat.one_pos))

/-! ## pieces -/

/-- the piece of a hint that a part is -/
def Part.piece : Part → Piece
  | field u => .run u.letter u.width
  | literal c => .literal c

theorem Numeric.letter_injective : Function.Injective letter := by
  intro u v h
  cases u <;> cases v <;> simp [letter] at h ⊢

theorem Numeric.isLetter_letter (u : Numeric) : Hint.isLetter u.letter = true := by
  cases u <;> decide

/-- A letter is none of the characters with a meaning of their own. -/
theorem not_isMark_of_isLetter (hc : Hint.isLetter c = true) :
    isQuote c = false ∧ c ≠ '\\' ∧ c ≠ '%' := by
  simp only [Hint.isLetter, List.contains_eq_mem, List.mem_cons, List.not_mem_nil, or_false,
    decide_eq_true_eq] at hc
  rcases hc with rfl | rfl | rfl | rfl | rfl | rfl | rfl | rfl | rfl | rfl | rfl | rfl <;> decide

theorem pieces?_letter (hc : Hint.isLetter c = true) (rest : Text) :
    pieces? .plain (c :: rest) = (pieces? .plain rest).map (addLetter c) := by
  obtain ⟨hquote, hescape, hpercent⟩ := not_isMark_of_isLetter hc
  simp [pieces?, hc, hquote, hescape, hpercent]

theorem pieces?_plain (hc : IsPlain c) (rest : Text) :
    pieces? .plain (c :: rest) = (pieces? .plain rest).map (.literal c :: ·) := by
  obtain ⟨hletter, hquote, hescape, hpercent⟩ := hc
  simp [pieces?, hletter, hquote, hescape, hpercent]

/-- A letter before other pieces is a run of its own. -/
theorem addLetter_of_head? (h : ∀ d m, qs.head? = some (.run d m) → c ≠ d) :
    addLetter c qs = .run c 1 :: qs := by
  cases qs with
  | nil => rfl
  | cons q qs =>
    cases q with
    | literal d => rfl
    | run d m => exact if_neg (h d m rfl)
    | gap => rfl

theorem pieces?_letters (hc : Hint.isLetter c = true) (hrest : pieces? .plain rest = some qs)
    (hhead : ∀ d m, qs.head? = some (.run d m) → c ≠ d) (n : Nat) :
    pieces? .plain (List.replicate (n + 1) c ++ rest) = some (.run c (n + 1) :: qs) := by
  induction n with
  | zero =>
    show pieces? .plain (c :: rest) = _
    rw [pieces?_letter hc, hrest, Option.map_some, addLetter_of_head? hhead]
  | succ n ih =>
    rw [List.replicate_succ, List.cons_append, pieces?_letter hc, ih, Option.map_some]
    simp [addLetter]

/-- Fields that are written once keep apart, whatever stands between them. -/
theorem pieces?_hint (hplain : ∀ c, .literal c ∈ ps → IsPlain c)
    (honce : ∀ u, ps.count (.field u) ≤ 1) :
    pieces? .plain (ps.flatMap Part.hint) = some (ps.map Part.piece) := by
  induction ps with
  | nil => rfl
  | cons p ps ih =>
    have ih' := ih (fun c hc => hplain c (List.mem_cons_of_mem p hc))
      (fun u => (List.count_le_count_cons).trans (honce u))
    rw [List.flatMap_cons, List.map_cons]
    cases p with
    | literal c =>
      show pieces? .plain (c :: ps.flatMap Part.hint) = _
      rw [pieces?_plain (hplain c List.mem_cons_self), ih']
      rfl
    | field u =>
      have hnot : .field u ∉ ps := by
        have hle := honce u
        rw [List.count_cons_self] at hle
        exact List.count_eq_zero.mp (by omega)
      -- two runs of one letter would be one, but a field that comes next is another one
      have hhead : ∀ d m, (ps.map Part.piece).head? = some (.run d m) → u.letter ≠ d := by
        intro d m hd heq
        cases ps with
        | nil => cases hd
        | cons q ps =>
          cases q with
          | literal c => cases hd
          | field v =>
            have hletter : v.letter = d := (Piece.run.inj (Option.some.inj hd)).1
            rw [Numeric.letter_injective (heq.trans hletter.symm)] at hnot
            exact hnot List.mem_cons_self
      obtain ⟨n, hn⟩ := Nat.exists_eq_add_one_of_ne_zero u.width_pos.ne'
      show pieces? .plain (List.replicate u.width u.letter ++ ps.flatMap Part.hint) = _
      rw [hn, pieces?_letters u.isLetter_letter ih' hhead n, ← hn]
      rfl

/-! ## the format -/

theorem addPiece?_piece (hplain : ∀ c, p = .literal c → IsPlain c) (format : Text) :
    addPiece? format p.piece = some (format ++ p.format) := by
  cases p with
  | literal c =>
    have hc := (hplain c rfl).2.2.2
    simp [Part.piece, addPiece?, Hint.literal, hc, Part.format]
  | field u => cases u <;> rfl

theorem foldlM_addPiece? (hplain : ∀ c, .literal c ∈ ps → IsPlain c) (format : Text) :
    (ps.map Part.piece).foldlM addPiece? format = some (format ++ ps.flatMap Part.format) := by
  induction ps generalizing format with
  | nil => simp
  | cons p ps ih =>
    have hp : addPiece? format p.piece = some (format ++ p.format) := by
      apply addPiece?_piece
      rintro c rfl
      exact hplain c List.mem_cons_self
    rw [List.map_cons, List.foldlM_cons, hp]
    show (ps.map Part.piece).foldlM addPiece? (format ++ p.format) = _
    rw [ih (fun c hc => hplain c (List.mem_cons_of_mem p hc)), List.flatMap_cons,
      List.append_assoc]

theorem format?_hint (h : IsNumericHint ps) :
    Hint.format? (ps.flatMap Part.hint) = some (ps.flatMap Part.format) := by
  unfold Hint.format?
  rw [pieces?_hint h.literal h.count_le_one, Option.bind_some, foldlM_addPiece? h.literal,
    List.nil_append]

/-- A hint for a date is not one of the hints of one letter. -/
theorem IsNumericHint.hint_ne_singleton (h : IsNumericHint ps) (c : Char) :
    ps.flatMap Part.hint ≠ [c] := by
  obtain ⟨before, after, rfl⟩ := List.append_of_mem (mem_numerics.mp h.hasDate.1)
  intro heq
  have hlen := congrArg List.length heq
  rw [List.flatMap_append, List.flatMap_cons, List.length_append, List.length_append] at hlen
  simp [Part.hint, Numeric.width] at hlen
  omega

/-! ## reading -/

variable {u before after : Text}

/-- What spells the parts is read by their format as the date with the time that is written. -/
theorem IsNumericHint.readBy?_of_spells (h : IsNumericHint ps)
    (ht : t.HasFourDigitYear) (hu : Spells t ps u) :
    readBy? (ps.flatMap Part.format) u = some ⟨t.date, t.time.only (numerics ps)⟩ := by
  have hread : Fields.read? (ps.flatMap Part.format) u = some (.holding t (numerics ps)) := by
    have happend := hu.read?_append ht (fun c hc => (h.literal c hc).2.2.2) []
    rw [List.append_nil, items_nil] at happend
    exact happend
  unfold readBy? readUniversal? readLocal? readDate?
  rw [hread, Option.bind_some, Option.bind_some, Option.bind_some, Fields.universal?_holding,
    Option.none_or]
  rcases h.clock with ⟨hhour, hminute⟩ | ⟨hhour, hminute⟩
  · have hhour' : .hour ∈ numerics ps :=
      mem_numerics.mpr (List.count_pos_iff.mp (by rw [hhour]; exact Nat.one_pos))
    have hminute' : .minute ∈ numerics ps :=
      mem_numerics.mpr (List.count_pos_iff.mp (by rw [hminute]; exact Nat.one_pos))
    rw [Fields.local?_holding h.hasDate hhour' hminute', Option.some_or]
  · have hsecond : ps.count (.field .second) = 0 := by
      have := h.second
      omega
    have hnot : ∀ n, ps.count (.field n) = 0 → n ∉ numerics ps := fun n hn hmem =>
      List.count_eq_zero.mp hn (mem_numerics.mp hmem)
    rw [Fields.local?_holding_eq_none (hnot _ hhour), Option.none_or,
      Fields.startOfDay?_holding h.hasDate,
      Time.only_eq_midnight (hnot _ hhour) (hnot _ hminute) (hnot _ hsecond)]

/-- A date-time that is written through a hint is read back by the hint, whatever the culture: the
date, and the numbers of the time that are written. -/
theorem parse?_hint (h : IsNumericHint ps) (ht : 0 ≤ t.date.year ∧ t.date.year ≤ 9999)
    (hbefore : ∀ b ∈ before, Text.isBlank b = true) (hafter : ∀ b ∈ after, Text.isBlank b = true)
    (k : Culture) :
    parse? k (some (ps.flatMap Part.hint)) (before ++ ps.flatMap (Part.written t) ++ after)
      = some ⟨t.date, t.time.only (numerics ps)⟩ := by
  have hspells : Spells t ps (Text.trim (before ++ ps.flatMap (Part.written t) ++ after)) :=
    (Spells.written t ps).trim ht hbefore hafter
  have hne := hspells.ne_nil ht (mem_numerics.mp h.hasDate.1)
  unfold parse?
  dsimp only
  rw [if_neg (by simpa using hne)]
  unfold readHinted?
  split
  · next c heq => exact absurd heq (h.hint_ne_singleton c)
  · rw [format?_hint h, Option.bind_some]
    exact h.readBy?_of_spells ht hspells

/-- The digit between month and year belongs to neither, and the letter T is no directive. -/
theorem parse?_hint_run_together :
    (0 ≤ (987 : Int) ∧ (987 : Int) ≤ 9999) ∧
      parse? .ptBR (some "MM1yyyy ddTmmHH".toList) " \u00a00210987 28T0519\n".toList
        = some ⟨⟨987, 2, 28, by decide⟩, ⟨19, 5, 0, 0, by decide⟩⟩ := by
  have h : IsNumericHint [.field .month, .literal '1', .field .year, .literal ' ', .field .day,
      .literal 'T', .field .minute, .field .hour] := by
    refine ⟨?_, rfl, rfl, rfl, Or.inl ⟨rfl, rfl⟩, by decide⟩
    intro c hc
    simp only [List.mem_cons, Part.literal.injEq, reduceCtorEq, false_or, List.not_mem_nil,
      or_false] at hc
    rcases hc with rfl | rfl | rfl <;> decide
  have hbefore : ∀ b ∈ [' ', '\u00a0'], Text.isBlank b = true := by
    rw [List.forall_mem_cons, List.forall_mem_singleton]
    decide
  have hafter : ∀ b ∈ ['\n'], Text.isBlank b = true := by
    rw [List.forall_mem_singleton]
    decide
  have hread := parse?_hint (t := ⟨⟨987, 2, 28, by decide⟩, ⟨19, 5, 42, 0, by decide⟩⟩) h
    (by decide) hbefore hafter .ptBR
  exact ⟨by decide, hread⟩

end FormatInverse.Calendar
