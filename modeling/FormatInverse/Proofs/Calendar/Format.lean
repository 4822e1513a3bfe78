import FormatInverse.Proofs.Calendar.Scan

/-!
# Formats taken apart and read by

A format is the text of its items: a field stands for itself once it is written (`items_written`),
and so does every character but the percent sign (`items_literal`).

Reading by a list of items goes item by item.  A literal that is no white space has to stand in the
text as it is, so a text with fewer of them than the format is not read
(`Fields.count_le_of_readItems?`).  Where all fields are numbers a text with more of them is not read
either (`Fields.count_eq_of_readItems?`).
-/

namespace FormatInverse.Calendar

variable {c : Char} {field : Field} {item : Item} {is : List Item} {f g : Fields} {t u : Text}

/-! ## items -/

theorem items_nil : items [] = [] := by
  rw [items.eq_def]

theorem items_literal (hc : c ≠ '%') (t : Text) : items (c :: t) = .literal c :: items t := by
  rw [items.eq_def]
  exact if_neg hc

theorem items_coded {n : Nat} (h : coded? t = some (item, n)) :
    items ('%' :: t) = item :: items (t.drop n) := by
  rw [items.eq_def]
  simp only [if_true, h]

/-- No code is the beginning of another one. -/
theorem coded?_append {code : Text} (h : (code, field) ∈ codes) (t : Text) :
    coded? (code ++ t) = some (.field field, code.length) := by
  simp only [codes, List.map_cons, List.map_nil, List.mem_cons, List.not_mem_nil, or_false,
    Prod.mk.injEq] at h
  rcases h with ⟨rfl, rfl⟩ | ⟨rfl, rfl⟩ | ⟨rfl, rfl⟩ | ⟨rfl, rfl⟩ | ⟨rfl, rfl⟩ | ⟨rfl, rfl⟩ |
    ⟨rfl, rfl⟩ | ⟨rfl, rfl⟩ | ⟨rfl, rfl⟩ | ⟨rfl, rfl⟩ | ⟨rfl, rfl⟩ | ⟨rfl, rfl⟩ | ⟨rfl, rfl⟩ |
    ⟨rfl, rfl⟩ | ⟨rfl, rfl⟩ | ⟨rfl, rfl⟩ | ⟨rfl, rfl⟩ | ⟨rfl, rfl⟩ | ⟨rfl, rfl⟩
  all_goals rfl

theorem written_eq : ∀ entry ∈ codes, entry.2.written = '%' :: entry.1 := by
  decide

/-- A field that has a code is found again where it is written, whatever follows. -/
theorem items_written (h : field ∈ codes.map (·.2)) (t : Text) :
    items (field.written ++ t) = .field field :: items t := by
  obtain ⟨⟨code, field'⟩, hentry, rfl⟩ := List.mem_map.mp h
  rw [written_eq _ hentry, List.cons_append, items_coded (coded?_append hentry t), List.drop_left]

/-! ## reading one item -/

namespace Fields

theorem readItems?_cons (item : Item) (is : List Item) (f : Fields) (t : Text) :
    readItems? (item :: is) f t = (item.scan? f t).bind fun p => readItems? is p.1 p.2 := rfl

theorem readItems?_literal (hc : Text.isBlank c = false) (is : List Item) (f : Fields) (t : Text) :
    readItems? (.literal c :: is) f (c :: t) = readItems? is f t := by
  simp [readItems?_cons, Item.scan?, hc, scanChar?]

theorem readItems?_literal_ne (hc : Text.isBlank c = false) (h : ∀ d ∈ t.head?, d ≠ c)
    (is : List Item) (f : Fields) : readItems? (.literal c :: is) f t = none := by
  cases t with
  | nil => simp [readItems?_cons, Item.scan?, hc, scanChar?]
  | cons d t =>
    have hd : c ≠ d := (h d rfl).symm
    simp [readItems?_cons, Item.scan?, hc, scanChar?, hd]

theorem readItems?_blank (hc : Text.isBlank c = true) (is : List Item) (f : Fields) (t : Text) :
    readItems? (.literal c :: is) f t = readItems? is f (Text.trimStart t) := by
  simp [readItems?_cons, Item.scan?, hc]

/-- Items that need no text can follow the ones that have used it up. -/
theorem readItems?_append {js : List Item} (h : readItems? is f t = some g)
    (hjs : ∀ f, readItems? js f [] = some f) : readItems? (is ++ js) f t = some g := by
  induction is generalizing f t with
  | nil =>
    obtain ⟨ht, h⟩ := Option.ite_none_right_eq_some.mp h
    rw [List.isEmpty_iff.mp ht, List.nil_append, hjs]
    exact h
  | cons item is ih =>
    rw [readItems?_cons] at h
    obtain ⟨⟨f', t'⟩, hscan, hrest⟩ := Option.bind_eq_some_iff.mp h
    rw [List.cons_append, readItems?_cons, hscan]
    exact ih hrest

/-- A text that begins with no point has no fraction. -/
theorem readItems?_fraction_nil (is : List Item) (f : Fields) :
    readItems? (.field .fraction :: is) f [] = readItems? is f [] := rfl

end Fields

/-! ## literals in the text -/

/-- What stands in the text for an item, and what is left of it. -/
theorem Item.suffix_of_scan? (h : item.scan? f t = some (g, u)) : u <:+ t := by
  cases item with
  | literal c =>
    unfold Item.scan? at h
    dsimp only at h
    split at h
    · obtain ⟨-, rfl⟩ := Prod.mk.inj (Option.some.inj h)
      exact suffix_trimStart t
    · obtain ⟨u', hu, heq⟩ := Option.map_eq_some_iff.mp h
      obtain ⟨-, rfl⟩ := Prod.mk.inj heq
      exact suffix_of_scanChar? hu
  | field field => exact Field.suffix_of_scan? h
  | unknown => cases h

theorem eq_cons_of_scan?_literal (hc : Text.isBlank c = false)
    (h : (Item.literal c).scan? f t = some (g, u)) : t = c :: u := by
  unfold Item.scan? at h
  dsimp only at h
  rw [if_neg (by simp [hc])] at h
  obtain ⟨u', hu, heq⟩ := Option.map_eq_some_iff.mp h
  obtain ⟨-, rfl⟩ := Prod.mk.inj heq
  cases t with
  | nil => cases hu
  | cons d t =>
    obtain ⟨rfl, ht⟩ := Option.ite_none_right_eq_some.mp hu
    cases ht
    rfl

/-- A text that is read has every literal of the format, as often as the format has it. -/
theorem Fields.count_le_of_readItems? (hc : Text.isBlank c = false)
    (h : Fields.readItems? is f t = some g) : is.count (.literal c) ≤ t.count c := by
  induction is generalizing f t with
  | nil => exact Nat.zero_le _
  | cons item is ih =>
    rw [readItems?_cons] at h
    obtain ⟨⟨f', t'⟩, hscan, hrest⟩ := Option.bind_eq_some_iff.mp h
    have hle : is.count (.literal c) ≤ t'.count c := ih hrest
    rw [List.count_cons]
    split
    · next heq =>
      rw [beq_iff_eq.mp heq] at hscan
      rw [eq_cons_of_scan?_literal hc hscan, List.count_cons_self]
      exact Nat.succ_le_succ hle
    · exact hle.trans ((Item.suffix_of_scan? hscan).sublist.count_le c)

def Item.isNumeric : Item → Bool
  | .literal _ => true
  | .field f => f.isNumeric
  | .unknown => false

/-- Only a literal takes a mark off the text, itself. -/
theorem Item.count_of_scan? (hitem : item.isNumeric = true) (hc : IsMark c)
    (h : item.scan? f t = some (g, u)) :
    t.count c = u.count c + if item == .literal c then 1 else 0 := by
  cases item with
  | literal d =>
    by_cases hd : Text.isBlank d = true
    · have hne : d ≠ c := by
        rintro rfl
        rw [hc.isBlank] at hd
        cases hd
      have hscan := (if_pos hd).symm.trans h
      obtain ⟨-, rfl⟩ := Prod.mk.inj (Option.some.inj hscan)
      rw [count_trimStart hc.isBlank, if_neg (by simpa using hne), Nat.add_zero]
    · rw [eq_cons_of_scan?_literal (Bool.not_eq_true _ ▸ hd) h, List.count_cons]
      simp
  | field field =>
    rw [Field.count_of_scan? hitem hc h, if_neg (by simp), Nat.add_zero]
  | unknown => cases hitem

/-- A text that is read by numbers has every mark exactly as often as the format has it. -/
theorem Fields.count_eq_of_readItems? (his : is.all Item.isNumeric = true) (hc : IsMark c)
    (h : Fields.readItems? is f t = some g) : t.count c = is.count (.literal c) := by
  induction is generalizing f t with
  | nil =>
    obtain ⟨ht, -⟩ := Option.ite_none_right_eq_some.mp h
    rw [List.isEmpty_iff.mp ht]
    rfl
  | cons item is ih =>
    rw [List.all_cons, Bool.and_eq_true] at his
    rw [readItems?_cons] at h
    obtain ⟨⟨f', t'⟩, hscan, hrest⟩ := Option.bind_eq_some_iff.mp h
    rw [Item.count_of_scan? his.1 hc hscan, List.count_cons, ih his.2 hrest]

end FormatInverse.Calendar
