import FormatInverse.Calendar.Hint
import FormatInverse.Proofs.Calendar.Known

/-!
# The items of a custom hint

A hint is translated piece by piece into the text of a format.  That text is always the writing of a
list of items (`format?_eq`), which is taken apart into the same items again
(`items_flatMap_written`).  So a format can be followed as a list of items (`addItem?`): a point is
taken off the end of the list where letters for a fraction follow it, and no other item changes.

The fields of the items are those of the runs of the hint, in order (`forall₂_runs`), and so the
letters of a hint settle what a text that is read by it makes known (`mem_entriesOf_iff`).
-/

namespace FormatInverse.Calendar

variable {c : Char} {n : Nat} {f : Field} {item : Item} {is js : List Item} {hint format : Text}

/-! ## items as text -/

/-- an item as a format writes it -/
def Item.written : Item → Text
  | .literal c => Hint.literal c
  | .field f => f.written
  | .unknown => ['%']

/-- Every item but a field without a code can be written. -/
def Item.IsNamed : Item → Prop
  | .literal _ => True
  | .field f => f ∈ codes.map (·.2)
  | .unknown => False

theorem items_literal_append (c : Char) (t : Text) :
    items (Hint.literal c ++ t) = .literal c :: items t := by
  unfold Hint.literal
  split_ifs with hc
  · rw [hc]
    exact items_coded (t := '%' :: t) rfl
  · exact items_literal hc t

/-- What is written as items is taken apart into the same items. -/
theorem items_flatMap_written (his : ∀ item ∈ is, item.IsNamed) :
    items (is.flatMap Item.written) = is := by
  induction is with
  | nil => exact items_nil
  | cons item is ih =>
    have hrest := ih fun item hitem => his item (List.mem_cons_of_mem _ hitem)
    have hitem : item.IsNamed := his item List.mem_cons_self
    rw [List.flatMap_cons]
    cases item with
    | literal c =>
      show items (Hint.literal c ++ _) = _
      rw [items_literal_append, hrest]
    | field f =>
      show items (f.written ++ _) = _
      rw [items_written hitem, hrest]
    | unknown => exact hitem.elim

theorem written_getLast? (hitem : item.IsNamed) :
    item.written ≠ [] ∧ (item.written.getLast? = some '.' ↔ item = .literal '.') := by
  cases item with
  | literal c =>
    simp only [Item.written, Hint.literal, Item.literal.injEq]
    split_ifs with hc
    · simp [hc]
    · simp
  | field f =>
    have hcodes : ∀ entry ∈ codes, entry.2.written ≠ [] ∧ entry.2.written.getLast? ≠ some '.' := by
      decide
    obtain ⟨entry, hentry, rfl⟩ := List.mem_map.mp hitem
    obtain ⟨hne, hlast⟩ := hcodes entry hentry
    simp [Item.written, hne, hlast]
  | unknown => exact hitem.elim

/-- A format ends in a point exactly if its last item is one. -/
theorem flatMap_written_getLast? (his : ∀ item ∈ is, item.IsNamed) :
    (is.flatMap Item.written).getLast? = some '.' ↔ is.getLast? = some (.literal '.') := by
  rcases List.eq_nil_or_concat is with rfl | ⟨is, item, rfl⟩
  · simp
  · obtain ⟨hne, hlast⟩ := written_getLast? (his item (by simp))
    rw [List.concat_eq_append, List.flatMap_append, List.flatMap_singleton,
      List.getLast?_append_of_ne_nil _ hne, hlast, List.getLast?_concat, Option.some.injEq]

def Item.field? : Item → Option Field
  | .field f => some f
  | _ => none

/-! ## pieces as items -/

namespace Hint

/-- The items with one more piece. -/
def addItem? (is : List Item) : Piece → Option (List Item)
  | .gap => some is
  | .literal c => some (is ++ [.literal c])
  | .run c n =>
    if (c = 'f' ∨ c = 'F') ∧ is.getLast? = some (.literal '.') then
      some (is.dropLast ++ [.field .fraction])
    else (field? c n).map fun f => is ++ [.field f]

/-- the items of a custom hint -/
def items? (hint : Text) : Option (List Item) :=
  (pieces? .plain hint).bind fun pieces => pieces.foldlM addItem? []

variable {p : Piece} {pieces : List Piece}

theorem addPiece?_flatMap_written (his : ∀ item ∈ is, item.IsNamed) (p : Piece) :
    addPiece? (is.flatMap Item.written) p = (addItem? is p).map (List.flatMap Item.written) := by
  cases p with
  | gap => rfl
  | literal c => simp [addPiece?, addItem?, Item.written]
  | run c n =>
    unfold addPiece? addItem?
    dsimp only
    simp only [flatMap_written_getLast? his]
    split_ifs with hpoint
    · obtain ⟨is, rfl⟩ := List.getLast?_eq_some_iff.mp hpoint.2
      simp [Item.written, literal]
    · rw [Option.map_map]
      congr 1
      funext f
      simp [Item.written]

/-! ## letters and fields -/

/-- the entries of the time of day, and the offset, that a letter stands for -/
def letterEntries (c : Char) : List Entry :=
  match c with
  | 'H' => [.half, .hourOfHalf]
  | 'h' => [.hourOfHalf]
  | 'm' => [.minute]
  | 's' => [.second]
  | 't' => [.half]
  | 'f' | 'F' => [.nanosecond]
  | 'z' | 'K' => [.offset]
  | _ => []

/-- the entries of the time of day, and the offset -/
def timeEntries : List Entry := [.half, .hourOfHalf, .minute, .second, .nanosecond, .offset]

theorem field?_inv (h : field? c n = some f) :
    f ∈ codes.map (·.2) ∧ ∀ e ∈ timeEntries, e ∈ f.entries ↔ e ∈ letterEntries c := by
  unfold field? at h
  split at h
  case h_1 =>
    cases h
    split_ifs <;> decide
  case h_2 | h_3 =>
    cases h
    generalize (n != 3) = long
    split_ifs <;> cases long <;> decide
  case h_11 =>
    obtain ⟨⟨hletter, hcount⟩, h⟩ := Option.ite_none_right_eq_some.mp h
    cases h
    rcases hletter with rfl | rfl <;> rcases hcount with rfl | rfl | rfl <;> decide
  -- every other letter has one field, for some lengths of its run
  all_goals
    split_ifs at h <;> cases h <;> decide

/-- A run of letters stands for a field; behind a point that is a fraction with the point. -/
def StandsFor (run : Char × Nat) (f : Field) : Prop :=
  field? run.1 run.2 = some f ∨ (run.1 = 'f' ∨ run.1 = 'F') ∧ f = .fraction

theorem StandsFor.mem_codes (h : StandsFor (c, n) f) : f ∈ codes.map (·.2) := by
  rcases h with h | ⟨-, rfl⟩
  · exact (field?_inv h).1
  · decide

theorem StandsFor.mem_entries_iff {e : Entry} (h : StandsFor (c, n) f) (he : e ∈ timeEntries) :
    e ∈ f.entries ↔ e ∈ letterEntries c := by
  rcases h with h | ⟨hletter, rfl⟩
  · exact (field?_inv h).2 e he
  · revert e
    rcases hletter with rfl | rfl <;> decide

/-! ## the items of the pieces -/

def Piece.run? : Piece → Option (Char × Nat)
  | .run c n => some (c, n)
  | _ => none

theorem isNamed_of_addItem? (his : ∀ item ∈ is, item.IsNamed) (h : addItem? is p = some js) :
    ∀ item ∈ js, item.IsNamed := by
  cases p with
  | gap =>
    cases h
    exact his
  | literal c =>
    cases h
    simpa [or_imp, forall_and, Item.IsNamed] using his
  | run c n =>
    unfold addItem? at h
    dsimp only at h
    split_ifs at h
    · cases h
      rw [List.forall_mem_append, List.forall_mem_singleton]
      exact ⟨fun item hitem => his item (List.mem_of_mem_dropLast hitem),
        StandsFor.mem_codes (c := 'f') (n := 1) (Or.inr ⟨Or.inl rfl, rfl⟩)⟩
    · obtain ⟨f, hf, rfl⟩ := Option.map_eq_some_iff.mp h
      rw [List.forall_mem_append, List.forall_mem_singleton]
      exact ⟨his, (field?_inv hf).1⟩

/-- A run is one more field, and what it takes off the end is none. -/
theorem fields_of_addItem? (h : addItem? is p = some js) :
    ∃ fs, js.filterMap Item.field? = is.filterMap Item.field? ++ fs ∧
      List.Forall₂ StandsFor p.run?.toList fs := by
  cases p with
  | gap =>
    cases h
    exact ⟨[], by simp, .nil⟩
  | literal c =>
    cases h
    exact ⟨[], by simp [Item.field?], .nil⟩
  | run c n =>
    unfold addItem? at h
    dsimp only at h
    split_ifs at h with hpoint
    · cases h
      obtain ⟨hletter, hlast⟩ := hpoint
      obtain ⟨is, rfl⟩ := List.getLast?_eq_some_iff.mp hlast
      exact ⟨[.fraction], by simp [Item.field?], .cons (Or.inr ⟨hletter, rfl⟩) .nil⟩
    · obtain ⟨f, hf, rfl⟩ := Option.map_eq_some_iff.mp h
      exact ⟨[f], by simp [Item.field?], .cons (Or.inl hf) .nil⟩

theorem isNamed_of_foldlM (his : ∀ item ∈ is, item.IsNamed)
    (h : pieces.foldlM addItem? is = some js) : ∀ item ∈ js, item.IsNamed := by
  induction pieces generalizing is with
  | nil =>
    cases h
    exact his
  | cons p pieces ih =>
    rw [List.foldlM_cons] at h
    obtain ⟨is', hp, h⟩ := Option.bind_eq_some_iff.mp h
    exact ih (isNamed_of_addItem? his hp) h

theorem fields_of_foldlM (h : pieces.foldlM addItem? is = some js) :
    ∃ fs, js.filterMap Item.field? = is.filterMap Item.field? ++ fs ∧
      List.Forall₂ StandsFor (pieces.filterMap Piece.run?) fs := by
  induction pieces generalizing is with
  | nil =>
    cases h
    exact ⟨[], by simp, .nil⟩
  | cons p pieces ih =>
    rw [List.foldlM_cons] at h
    obtain ⟨is', hp, h⟩ := Option.bind_eq_some_iff.mp h
    obtain ⟨fs, hfs, hruns⟩ := fields_of_addItem? hp
    obtain ⟨fs', hfs', hruns'⟩ := ih h
    have hcons : (p :: pieces).filterMap Piece.run?
        = p.run?.toList ++ pieces.filterMap Piece.run? := by
      cases hrun : p.run? <;> simp [hrun]
    refine ⟨fs ++ fs', by rw [hfs', hfs, List.append_assoc], ?_⟩
    rw [hcons]
    exact List.rel_append hruns hruns'

theorem foldlM_addPiece?_written (his : ∀ item ∈ is, item.IsNamed) (pieces : List Piece) :
    pieces.foldlM addPiece? (is.flatMap Item.written)
      = (pieces.foldlM addItem? is).map (List.flatMap Item.written) := by
  induction pieces generalizing is with
  | nil => rfl
  | cons p pieces ih =>
    rw [List.foldlM_cons, List.foldlM_cons, addPiece?_flatMap_written his]
    cases hp : addItem? is p with
    | none => rfl
    | some js => exact ih (isNamed_of_addItem? his hp)

/-- The format of a hint is the writing of its items. -/
theorem format?_eq (hint : Text) :
    format? hint = (items? hint).map (List.flatMap Item.written) := by
  unfold format? items?
  cases pieces? .plain hint with
  | none => rfl
  | some pieces => exact foldlM_addPiece?_written (List.forall_mem_nil _) pieces

/-- The items of a format are those of its hint, and nothing else. -/
theorem items?_of_format? (h : format? hint = some format) : items? hint = some (items format) := by
  rw [format?_eq] at h
  obtain ⟨is, his, rfl⟩ := Option.map_eq_some_iff.mp h
  obtain ⟨pieces, -, hfold⟩ := Option.bind_eq_some_iff.mp his
  rw [his, items_flatMap_written (isNamed_of_foldlM (by simp) hfold)]

/-! ## what a hint makes known -/

/-- The hint has a run of the letter. -/
def HasRun (pieces : List Piece) (c : Char) : Prop := ∃ n, .run c n ∈ pieces

theorem mem_entriesOf {e : Entry} :
    e ∈ entriesOf is ↔ ∃ f ∈ is.filterMap Item.field?, e ∈ f.entries := by
  induction is with
  | nil => simp [entriesOf]
  | cons item is ih =>
    have hcons : entriesOf (item :: is) = item.entries ++ entriesOf is := List.flatMap_cons
    rw [hcons, List.mem_append, ih]
    cases item with
    | field f => simp [Item.entries, Item.field?]
    | literal c => simp [Item.entries, Item.field?]
    | unknown => simp [Item.entries, Item.field?]

theorem exists_entries_iff {e : Entry} {runs : List (Char × Nat)} {fs : List Field}
    (h : List.Forall₂ StandsFor runs fs) (he : e ∈ timeEntries) :
    (∃ f ∈ fs, e ∈ f.entries) ↔ ∃ run ∈ runs, e ∈ letterEntries run.1 := by
  induction h with
  | nil => simp
  | cons hrun _ ih =>
    rw [List.exists_mem_cons_iff, List.exists_mem_cons_iff, ih, hrun.mem_entries_iff he]

theorem mem_runs : (c, n) ∈ pieces.filterMap Piece.run? ↔ .run c n ∈ pieces := by
  rw [List.mem_filterMap]
  constructor
  · rintro ⟨p, hp, hrun⟩
    cases p with
    | run d m =>
      cases hrun
      exact hp
    | literal d => cases hrun
    | gap => cases hrun
  · intro hp
    exact ⟨.run c n, hp, rfl⟩

/-- The letters of a hint settle what its format makes known of a time of day and an offset. -/
theorem mem_entriesOf_iff {e : Entry} (hpieces : pieces? .plain hint = some pieces)
    (hformat : format? hint = some format) (he : e ∈ timeEntries) :
    e ∈ entriesOf (items format) ↔ ∃ c, HasRun pieces c ∧ e ∈ letterEntries c := by
  have hitems := items?_of_format? hformat
  rw [items?, hpieces, Option.bind_some] at hitems
  obtain ⟨fs, hfs, hruns⟩ := fields_of_foldlM hitems
  rw [mem_entriesOf, hfs, List.filterMap_nil, List.nil_append, exists_entries_iff hruns he]
  constructor
  · rintro ⟨⟨c, n⟩, hrun, he⟩
    exact ⟨c, ⟨n, mem_runs.mp hrun⟩, he⟩
  · rintro ⟨c, ⟨n, hrun⟩, he⟩
    exact ⟨(c, n), mem_runs.mpr hrun, he⟩

end Hint

end FormatInverse.Calendar
