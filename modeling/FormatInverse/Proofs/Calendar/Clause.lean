import FormatInverse.Proofs.Calendar.Hint
import FormatInverse.Proofs.Calendar.Translation

/-!
# The clauses of a custom hint

A hint is written in clauses (`IsHint`): runs of one letter, as long as they can be, quoted texts,
escaped characters, percent signs and characters that stand for themselves.  Every hint that has a
format is written so (`exists_isHint_of_format?`).

The format is made piece by piece, and a point is taken off its end where letters for a fraction
follow.  `itemsOf?` says the same from the front: what the clauses emit is gone through once, and a
point is read together with the run right behind it.  So no two clauses make up an item between them
that neither of them stands for (`format?_clauses`).
-/

namespace FormatInverse.Calendar.Hint

variable {c q : Char} {hint format rest t : Text} {is : List Item} {ps : List Piece}

/-! ## clauses -/

inductive Clause where
  | run (letter : Char) (length : Nat)
  | quoted (quote : Char) (text : Text)
  | escaped (c : Char)
  | percent
  | plain (c : Char)
  deriving DecidableEq, Repr

namespace Clause

/-- the clause as a hint writes it -/
def source : Clause → Text
  | run c n => List.replicate n c
  | quoted q t => q :: (t ++ [q])
  | escaped c => ['\\', c]
  | percent => ['%']
  | plain c => [c]

def IsFormed : Clause → Prop
  | run c n => isLetter c = true ∧ n ≠ 0
  | quoted q t => isQuote q = true ∧ q ∉ t
  | plain c => IsPlain c
  | _ => True

/-- what the clause stands for: its run, its characters as they are, or nothing -/
def emitted : Clause → List Piece
  | run c n => [.run c n]
  | quoted _ t => t.map .literal
  | escaped c => [.literal c]
  | percent => []
  | plain c => [.literal c]

/-- the pieces that the clause is taken apart into -/
def pieces : Clause → List Piece
  | quoted _ t => .gap :: t.map .literal
  | percent => [.gap]
  | clause => clause.emitted

def letter? : Clause → Option Char
  | run c _ => some c
  | _ => none

/-- The clauses are not two runs of the same letter. -/
def Apart (a b : Clause) : Prop := a.letter? = none ∨ a.letter? ≠ b.letter?

instance : (clause : Clause) → Decidable clause.IsFormed
  | run c n => inferInstanceAs (Decidable (isLetter c = true ∧ n ≠ 0))
  | quoted q t => inferInstanceAs (Decidable (isQuote q = true ∧ q ∉ t))
  | escaped _ => .isTrue trivial
  | percent => .isTrue trivial
  | plain c => inferInstanceAs (Decidable (IsPlain c))

instance (a b : Clause) : Decidable (Apart a b) :=
  inferInstanceAs (Decidable (a.letter? = none ∨ a.letter? ≠ b.letter?))

end Clause

/-- The clauses of a hint: each is formed, and runs are as long as they can be. -/
structure IsHint (cs : List Clause) : Prop where
  formed : ∀ clause ∈ cs, clause.IsFormed
  maximal : cs.IsChain Clause.Apart

instance (cs : List Clause) : Decidable (IsHint cs) :=
  decidable_of_iff ((∀ clause ∈ cs, clause.IsFormed) ∧ cs.IsChain Clause.Apart)
    ⟨fun h => ⟨h.1, h.2⟩, fun h => ⟨h.1, h.2⟩⟩

open Clause

variable {clause : Clause} {cs : List Clause}

theorem isHint_nil : IsHint [] := ⟨List.forall_mem_nil _, .nil⟩

theorem isHint_cons :
    IsHint (clause :: cs) ↔
      clause.IsFormed ∧ (∀ next ∈ cs.head?, Apart clause next) ∧ IsHint cs := by
  constructor
  · rintro ⟨hformed, hmaximal⟩
    rw [List.forall_mem_cons] at hformed
    rw [List.isChain_cons] at hmaximal
    exact ⟨hformed.1, hmaximal.1, hformed.2, hmaximal.2⟩
  · rintro ⟨hclause, hnext, hformed, hmaximal⟩
    exact ⟨List.forall_mem_cons.mpr ⟨hclause, hformed⟩, List.isChain_cons.mpr ⟨hnext, hmaximal⟩⟩

/-- A clause that is no run can stand before any other. -/
theorem IsHint.cons (h : IsHint cs) (hclause : clause.IsFormed) (hno : clause.letter? = none) :
    IsHint (clause :: cs) :=
  isHint_cons.mpr ⟨hclause, fun _ _ => Or.inl hno, h⟩

/-! ## taking written clauses apart -/

theorem pieces?_quoted (ht : q ∉ t) (rest : Text) :
    pieces? (.quoted q) (t ++ q :: rest) = (pieces? .plain rest).map (t.map .literal ++ ·) := by
  induction t with
  | nil => simp [pieces?]
  | cons c t ih =>
    rw [List.mem_cons, not_or] at ht
    rw [List.cons_append, pieces?, if_neg (Ne.symm ht.1), ih ht.2, Option.map_map]
    rfl

/-- A clause begins with a piece, and that is a run only if the clause is one. -/
theorem letter?_of_head?_pieces {n : Nat}
    (h : (cs.flatMap Clause.pieces).head? = some (.run c n)) :
    ∃ next ∈ cs.head?, next.letter? = some c := by
  cases cs with
  | nil => cases h
  | cons next cs =>
    refine ⟨next, rfl, ?_⟩
    cases next <;> cases h
    rfl

theorem pieces?_source (h : IsHint cs) :
    pieces? .plain (cs.flatMap source) = some (cs.flatMap Clause.pieces) := by
  induction cs with
  | nil => rfl
  | cons clause cs ih =>
    obtain ⟨hclause, hnext, hcs⟩ := isHint_cons.mp h
    have hrest := ih hcs
    rw [List.flatMap_cons, List.flatMap_cons]
    cases clause with
    | run c n =>
      obtain ⟨hletter, hn⟩ := hclause
      obtain ⟨n, rfl⟩ := Nat.exists_eq_add_one_of_ne_zero hn
      refine pieces?_letters hletter hrest (fun d m hhead heq => ?_) n
      obtain ⟨next, hmem, hd⟩ := letter?_of_head?_pieces hhead
      rcases hnext next hmem with hno | hne
      · cases hno
      · exact hne (hd.symm ▸ congrArg some heq)
    | quoted q t =>
      obtain ⟨hquote, ht⟩ := hclause
      have hmark : q ≠ '\\' ∧ q ≠ '%' := by
        simp only [isQuote, Bool.or_eq_true, beq_iff_eq] at hquote
        rcases hquote with rfl | rfl <;> decide
      show pieces? .plain (q :: (t ++ [q] ++ cs.flatMap source)) = _
      rw [List.append_assoc, List.singleton_append, pieces?, if_pos hquote, pieces?_quoted ht,
        hrest]
      rfl
    | escaped c =>
      show pieces? .plain ('\\' :: c :: cs.flatMap source) = _
      simp [pieces?, isQuote, hrest, Clause.pieces, emitted]
    | percent =>
      show pieces? .plain ('%' :: cs.flatMap source) = _
      simp [pieces?, isQuote, hrest, Clause.pieces]
    | plain c =>
      show pieces? .plain (c :: cs.flatMap source) = _
      rw [pieces?_plain hclause, hrest]
      rfl

/-! ## every hint is written in clauses -/

/-- the texts that are the rest of a hint -/
def IsRest : Mode → Text → Prop
  | .plain, t => ∃ cs, IsHint cs ∧ cs.flatMap source = t
  | .escaped, t => ∃ c cs, IsHint cs ∧ c :: cs.flatMap source = t
  | .quoted q, t => ∃ s cs, q ∉ s ∧ IsHint cs ∧ s ++ q :: cs.flatMap source = t

/-- One more letter makes the run behind it longer, or is a run of its own. -/
theorem exists_isHint_letter (hletter : isLetter c = true) (h : IsHint cs) :
    ∃ cs', IsHint cs' ∧ cs'.flatMap source = c :: cs.flatMap source := by
  by_cases hnew : ∀ next ∈ cs.head?, Apart (.run c 1) next
  · exact ⟨.run c 1 :: cs, isHint_cons.mpr ⟨⟨hletter, Nat.one_ne_zero⟩, hnew, h⟩, rfl⟩
  · cases cs with
    | nil => exact absurd (fun next hnext => by cases hnext) hnew
    | cons clause cs =>
      obtain ⟨hclause, hnext, hcs⟩ := isHint_cons.mp h
      have hsame : clause.letter? = some c := by
        by_contra hne
        refine hnew fun next hmem => Or.inr fun heq => ?_
        cases hmem
        exact hne heq.symm
      cases clause with
      | run d n =>
        cases hsame
        exact ⟨.run c (n + 1) :: cs, isHint_cons.mpr ⟨⟨hletter, by omega⟩, hnext, hcs⟩, rfl⟩
      | quoted q t => cases hsame
      | escaped d => cases hsame
      | percent => cases hsame
      | plain d => cases hsame

theorem isRest_of_pieces? {mode : Mode} (h : pieces? mode hint = some ps) : IsRest mode hint := by
  induction hint generalizing mode ps with
  | nil =>
    cases mode with
    | plain => exact ⟨[], isHint_nil, rfl⟩
    | escaped => cases h
    | quoted q => cases h
  | cons c rest ih =>
    cases mode with
    | plain =>
      rw [pieces?] at h
      split_ifs at h with hquote hescape hpercent hletter
      · obtain ⟨_, hrest, -⟩ := Option.map_eq_some_iff.mp h
        obtain ⟨s, cs, hs, hcs, rfl⟩ := ih hrest
        exact ⟨.quoted c s :: cs, hcs.cons ⟨hquote, hs⟩ rfl, by simp [source]⟩
      · obtain ⟨d, cs, hcs, rfl⟩ := ih h
        exact ⟨.escaped d :: cs, hcs.cons trivial rfl, by simp [source, hescape]⟩
      · obtain ⟨_, hrest, -⟩ := Option.map_eq_some_iff.mp h
        obtain ⟨cs, hcs, rfl⟩ := ih hrest
        exact ⟨.percent :: cs, hcs.cons trivial rfl, by simp [source, hpercent]⟩
      · obtain ⟨_, hrest, -⟩ := Option.map_eq_some_iff.mp h
        obtain ⟨cs, hcs, rfl⟩ := ih hrest
        exact exists_isHint_letter hletter hcs
      · obtain ⟨_, hrest, -⟩ := Option.map_eq_some_iff.mp h
        obtain ⟨cs, hcs, rfl⟩ := ih hrest
        have hplain : IsPlain c :=
          ⟨eq_false_of_ne_true hletter, eq_false_of_ne_true hquote, hescape, hpercent⟩
        exact ⟨.plain c :: cs, hcs.cons hplain rfl, rfl⟩
    | escaped =>
      rw [pieces?] at h
      obtain ⟨_, hrest, -⟩ := Option.map_eq_some_iff.mp h
      obtain ⟨cs, hcs, rfl⟩ := ih hrest
      exact ⟨c, cs, hcs, rfl⟩
    | quoted q =>
      rw [pieces?] at h
      split_ifs at h with hc
      · obtain ⟨cs, hcs, rfl⟩ := ih h
        exact ⟨[], cs, List.not_mem_nil, hcs, by rw [hc]; rfl⟩
      · obtain ⟨_, hrest, -⟩ := Option.map_eq_some_iff.mp h
        obtain ⟨s, cs, hs, hcs, rfl⟩ := ih hrest
        refine ⟨c :: s, cs, ?_, hcs, rfl⟩
        rw [List.mem_cons, not_or]
        exact ⟨Ne.symm hc, hs⟩

theorem exists_isHint_of_format? (h : format? hint = some format) :
    ∃ cs, IsHint cs ∧ cs.flatMap source = hint := by
  obtain ⟨ps, hps, -⟩ := Option.bind_eq_some_iff.mp h
  exact isRest_of_pieces? hps

/-! ## items from the front -/

/-- The items of what clauses emit.  A point right before letters for a fraction is part of their
item; every other character is an item, and every other run has the item of its letter and
length. -/
def itemsOf? : List Piece → Option (List Item)
  | [] => some []
  | .gap :: ps => itemsOf? ps
  | .run c n :: ps => (field? c n).bind fun f => (itemsOf? ps).map (.field f :: ·)
  | .literal c :: .run d n :: ps =>
    if c = '.' ∧ (d = 'f' ∨ d = 'F') then (itemsOf? ps).map (.field .fraction :: ·)
    else (itemsOf? (.run d n :: ps)).map (.literal c :: ·)
  | .literal c :: ps => (itemsOf? ps).map (.literal c :: ·)

/-- a piece that emits something -/
def Piece.emits : Piece → Bool
  | .gap => false
  | _ => true

theorem filter_pieces (cs : List Clause) :
    (cs.flatMap Clause.pieces).filter Piece.emits = cs.flatMap emitted := by
  induction cs with
  | nil => rfl
  | cons clause cs ih =>
    rw [List.flatMap_cons, List.flatMap_cons, List.filter_append, ih]
    congr 1
    cases clause with
    | quoted q t =>
      show (t.map Piece.literal).filter Piece.emits = t.map Piece.literal
      refine List.filter_eq_self.mpr fun p hp => ?_
      obtain ⟨c, -, rfl⟩ := List.mem_map.mp hp
      rfl
    | _ => rfl

theorem itemsOf?_literal (h : c = '.' → ∀ d n, ps.head? = some (.run d n) → d ≠ 'f' ∧ d ≠ 'F') :
    itemsOf? (.literal c :: ps) = (itemsOf? ps).map (.literal c :: ·) := by
  cases ps with
  | nil => rfl
  | cons p ps =>
    cases p with
    | run d n => exact if_neg fun hpoint => by have := h hpoint.1 d n rfl; tauto
    | literal d => rfl
    | gap => rfl

/-- What is one more item at the end is one more item at the front of the rest. -/
theorem map_concat_append (o : Option (List Item)) (is : List Item) (item : Item) :
    o.map (is ++ [item] ++ ·) = (o.map (item :: ·)).map (is ++ ·) := by
  rw [Option.map_map]
  congr 1
  funext js
  simp

/-- Adding piece by piece gives the same items as going through them from the front.  Items that end
in a point wait for the next piece, so the point is looked at together with it. -/
theorem foldlM_addItem?_eq (ps : List Piece) (is : List Item) :
    (is.getLast? ≠ some (.literal '.') →
      ps.foldlM addItem? is = (itemsOf? (ps.filter Piece.emits)).map (is ++ ·)) ∧
    ps.foldlM addItem? (is ++ [.literal '.'])
      = (itemsOf? (.literal '.' :: ps.filter Piece.emits)).map (is ++ ·) := by
  induction ps generalizing is with
  | nil => simp [itemsOf?]
  | cons p ps ih =>
    cases p with
    | gap => exact ih is
    | literal c =>
      have hstep : ∀ is, ps.foldlM addItem? (is ++ [.literal c])
          = (itemsOf? (.literal c :: ps.filter Piece.emits)).map (is ++ ·) := by
        intro is
        by_cases hc : c = '.'
        · rw [hc]
          exact (ih is).2
        · rw [(ih _).1 (by simpa using hc), itemsOf?_literal fun h => absurd h hc,
            map_concat_append]
      refine ⟨fun _ => hstep is, ?_⟩
      have hpoint := hstep (is ++ [.literal '.'])
      rw [map_concat_append, ← itemsOf?_literal fun _ d n h => by cases h] at hpoint
      exact hpoint
    | run c n =>
      have hstep : ∀ is, ((field? c n).map fun f => is ++ [Item.field f]).bind (ps.foldlM addItem?)
          = (itemsOf? (.run c n :: ps.filter Piece.emits)).map (is ++ ·) := by
        intro is
        rw [itemsOf?]
        cases field? c n with
        | none => rfl
        | some f =>
          show ps.foldlM addItem? (is ++ [.field f]) = (Option.map _ _).map _
          rw [(ih _).1 (by simp), map_concat_append]
      constructor
      · intro hlast
        rw [List.foldlM_cons, addItem?, if_neg fun h => hlast h.2]
        exact hstep is
      · rw [List.foldlM_cons, addItem?]
        by_cases hc : c = 'f' ∨ c = 'F'
        · rw [if_pos ⟨hc, List.getLast?_concat⟩, List.dropLast_concat]
          show ps.foldlM addItem? (is ++ [.field .fraction]) = _
          rw [(ih _).1 (by simp), map_concat_append]
          exact congrArg _ (if_pos ⟨rfl, hc⟩).symm
        · rw [if_neg fun h => hc h.1]
          refine (hstep _).trans ?_
          rw [map_concat_append]
          refine congrArg _ (itemsOf?_literal fun _ d m h => ?_).symm
          cases h
          exact not_or.mp hc

/-- The items of a written hint are those of what its clauses emit. -/
theorem items?_source (h : IsHint cs) :
    items? (cs.flatMap source) = itemsOf? (cs.flatMap emitted) := by
  have hfold := (foldlM_addItem?_eq (cs.flatMap Clause.pieces) []).1 (by simp)
  rw [items?, pieces?_source h, Option.bind_some, hfold, filter_pieces]
  simp

/-! ## the format -/

/-- the codes of a format with their percent signs, and the percent sign itself -/
def specifiers : List Text :=
  ["%%", "%y", "%Y", "%m", "%b", "%B", "%d", "%a", "%A", "%H", "%I", "%M", "%S", "%p", "%#z", "%:z",
    "%.f", "%3f", "%6f", "%9f"].map String.toList

theorem mem_specifiers_of_isNamed {item : Item} (h : item.IsNamed) :
    item.written ∈ specifiers ∨ ∃ c, c ≠ '%' ∧ item = .literal c := by
  cases item with
  | literal c =>
    by_cases hc : c = '%'
    · rw [hc]
      exact Or.inl (by decide)
    · exact Or.inr ⟨c, hc, rfl⟩
  | field f =>
    have hcodes : ∀ entry ∈ codes, entry.2.written ∈ specifiers := by decide
    obtain ⟨entry, hentry, rfl⟩ := List.mem_map.mp h
    exact Or.inl (hcodes entry hentry)
  | unknown => exact h.elim

/-- A format that a hint has is the writing of its items, each of them a code that is known or a
character other than the percent sign.  The hint is written in clauses, and however it is, the items
are those of what the clauses emit, in order. -/
theorem format?_clauses (h : format? hint = some format) :
    (items format).flatMap Item.written = format ∧
    (∀ item ∈ items format, item.written ∈ specifiers ∨ ∃ c, c ≠ '%' ∧ item = .literal c) ∧
    (∃ cs, IsHint cs ∧ cs.flatMap source = hint) ∧
    ∀ cs, IsHint cs → cs.flatMap source = hint →
      itemsOf? (cs.flatMap emitted) = some (items format) := by
  have hitems := items?_of_format? h
  have hwritten := h
  rw [format?_eq, hitems, Option.map_some, Option.some.injEq] at hwritten
  obtain ⟨pieces, -, hfold⟩ := Option.bind_eq_some_iff.mp hitems
  refine ⟨hwritten, fun item hitem => ?_, exists_isHint_of_format? h, ?_⟩
  · exact mem_specifiers_of_isNamed (isNamed_of_foldlM (List.forall_mem_nil _) hfold item hitem)
  · rintro cs hcs rfl
    rw [← items?_source hcs]
    exact hitems

/-- The quoted point belongs to the fraction behind the percent sign, the quoted and the escaped
percent sign to no code. -/
theorem format?_clauses_percent_signs :
    format? "yyyy'%.'%fff\\%MMM".toList = some "%Y%%%.f%%%b".toList ∧
    items "%Y%%%.f%%%b".toList = [.field .year, .literal '%', .field .fraction, .literal '%',
      .field (.monthName false)] := by
  have hformat : format? "yyyy'%.'%fff\\%MMM".toList = some "%Y%%%.f%%%b".toList := by decide
  have hcs : IsHint [.run 'y' 4, .quoted '\x27' ['%', '.'], .percent, .run 'f' 3, .escaped '%',
      .run 'M' 3] := by
    decide
  have hitems := (format?_clauses hformat).2.2.2 _ hcs rfl
  exact ⟨hformat, (Option.some.inj hitems).symm⟩

end FormatInverse.Calendar.Hint
