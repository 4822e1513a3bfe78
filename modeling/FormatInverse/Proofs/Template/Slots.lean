import FormatInverse.Proofs.Layout.Split
import FormatInverse.Proofs.Template.Render

/-!
# What the slots of a term captured

Every slot of a template captures a text, and several slots can belong to one term.  `textsOf` are
the texts of a term, in the order of its slots; one of them is chosen for it, the first or the last
(`chosen?_eq`).  Two things could be wrong with them:

* some of them differ; if none do, it does not matter which one is chosen (`SingleValued`);
* there are none; but every term of a linked template has a slot, so a text is chosen for every term
  (`Linked.exists_values`).
-/

namespace FormatInverse

variable {captured seen : List (TermId × Text)} {ids : List TermId} {id : TermId}
  {texts : List Text}

/-! ## terms with one text -/

/-- No term captured two different texts. -/
def SingleValued (captured : List (TermId × Text)) : Prop :=
  ∀ p ∈ captured, ∀ q ∈ captured, p.1 = q.1 → p.2 = q.2

namespace SingleValued

theorem nil : SingleValued [] := fun _ hp => absurd hp List.not_mem_nil

theorem of_subset (h : SingleValued captured) (hsub : seen ⊆ captured) : SingleValued seen :=
  fun p hp q hq => h p (hsub hp) q (hsub hq)

theorem cons_new (text : Text) (h : SingleValued seen)
    (hnew : seen.lookup id = none) : SingleValued ((id, text) :: seen) := by
  have hne : ∀ p ∈ seen, p.1 ≠ id := by
    intro p hp hid
    have hdiff := List.lookup_eq_none_iff.mp hnew p hp
    rw [hid, bne_self_eq_false] at hdiff
    cases hdiff
  intro p hp q hq hpq
  rcases List.mem_cons.mp hp with rfl | hp
  · rcases List.mem_cons.mp hq with rfl | hq
    · rfl
    · exact absurd hpq.symm (hne q hq)
  · rcases List.mem_cons.mp hq with rfl | hq
    · exact absurd hpq (hne p hp)
    · exact h p hp q hq hpq

theorem lookup (h : SingleValued captured) {p : TermId × Text} (hp : p ∈ captured) :
    captured.lookup p.1 = some p.2 := by
  cases hl : captured.lookup p.1 with
  | none =>
    have hdiff := List.lookup_eq_none_iff.mp hl p hp
    rw [bne_self_eq_false] at hdiff
    cases hdiff
  | some text =>
    obtain ⟨before, after, heq, -⟩ := List.lookup_eq_some_iff.mp hl
    have hmem : (p.1, text) ∈ captured := by
      rw [heq]
      exact List.mem_append_right _ List.mem_cons_self
    rw [h p hp _ hmem rfl]

end SingleValued

theorem mem_of_lookup {text : Text} (h : seen.lookup id = some text) :
    (id, text) ∈ seen := by
  obtain ⟨before, after, rfl, -⟩ := List.lookup_eq_some_iff.mp h
  exact List.mem_append_right _ List.mem_cons_self

/-- The scan for a conflict, when the texts before have none. -/
theorem firstConflict?_eq_none_iff (hseen : SingleValued seen) :
    firstConflict? seen captured = none ↔ SingleValued (captured ++ seen) := by
  induction captured generalizing seen with
  | nil => exact ⟨fun _ => hseen, fun _ => rfl⟩
  | cons p rest ih =>
    obtain ⟨id, text⟩ := p
    rw [firstConflict?]
    cases hl : seen.lookup id with
    | none =>
      show firstConflict? ((id, text) :: seen) rest = none ↔ _
      rw [ih (hseen.cons_new text hl)]
      -- the same pairs in another order
      constructor
      · intro h
        exact h.of_subset List.perm_middle.symm.subset
      · intro h
        exact h.of_subset List.perm_middle.subset
    | some first =>
      have hmem := mem_of_lookup hl
      show (if first = text then firstConflict? seen rest else some ⟨id, first, text⟩) = none ↔ _
      by_cases heq : first = text
      · rw [if_pos heq, ih hseen]
        rw [heq] at hmem
        constructor
        · intro h
          refine h.of_subset fun p hp => ?_
          rcases List.mem_cons.mp hp with rfl | hp
          · exact List.mem_append_right _ hmem
          · exact hp
        · intro h
          exact h.of_subset (List.subset_cons_self _ _)
      · rw [if_neg heq]
        constructor
        · intro h
          cases h
        · intro h
          have := h (id, first) (List.mem_append_right _ hmem) (id, text) List.mem_cons_self rfl
          exact absurd this heq

theorem singleValued_zip_map (ids : List TermId) (value : TermId → Text) :
    SingleValued (ids.zip (ids.map value)) := by
  have hvalue : ∀ p ∈ ids.zip (ids.map value), p.2 = value p.1 := by
    intro p hp
    rw [← List.map_prod_left_eq_zip] at hp
    obtain ⟨id, -, rfl⟩ := List.mem_map.mp hp
    rfl
  intro p hp q hq hpq
  rw [hvalue p hp, hvalue q hq, hpq]

theorem singleValued_zip_of_nodup (hlen : ids.length ≤ texts.length)
    (hnodup : ids.Nodup) : SingleValued (ids.zip texts) := by
  intro p hp q hq hpq
  rw [← List.map_fst_zip hlen] at hnodup
  rw [List.inj_on_of_nodup_map hnodup hp hq hpq]

/-- A function that gives every slot its text gives all the texts. -/
theorem map_eq_of_zip {value : TermId → Text}
    (hlen : ids.length = texts.length) (h : ∀ p ∈ ids.zip texts, value p.1 = p.2) :
    ids.map value = texts := by
  calc ids.map value = ((ids.zip texts).map Prod.fst).map value := by
        rw [List.map_fst_zip (Nat.le_of_eq hlen)]
    _ = (ids.zip texts).map Prod.snd := by
        rw [List.map_map]
        exact List.map_congr_left h
    _ = texts := List.map_snd_zip (Nat.le_of_eq hlen.symm)

/-! ## the texts of one term -/

/-- The texts of the slots of a term, in order. -/
def textsOf (captured : List (TermId × Text)) (id : TermId) : List Text :=
  (captured.filter (·.1 == id)).map (·.2)

theorem mem_textsOf {text : Text} : text ∈ textsOf captured id ↔ (id, text) ∈ captured := by
  simp [textsOf]

theorem textsOf_cons (p : TermId × Text) (captured : List (TermId × Text)) (id : TermId) :
    textsOf (p :: captured) id
      = if p.1 = id then p.2 :: textsOf captured id else textsOf captured id := by
  by_cases h : p.1 = id
  · simp [textsOf, h]
  · simp [textsOf, h]

theorem textsOf_reverse (captured : List (TermId × Text)) (id : TermId) :
    textsOf captured.reverse id = (textsOf captured id).reverse := by
  rw [textsOf, textsOf, List.filter_reverse, List.map_reverse]

theorem lookup_eq_head?_textsOf (captured : List (TermId × Text)) (id : TermId) :
    captured.lookup id = (textsOf captured id).head? := by
  induction captured with
  | nil => rfl
  | cons p rest ih =>
    obtain ⟨id', text⟩ := p
    rw [textsOf_cons, List.lookup_cons]
    by_cases h : id' = id
    · simp [h]
    · have hne : (id == id') = false := beq_eq_false_iff_ne.mpr (Ne.symm h)
      simp only [hne, if_neg h]
      exact ih

theorem singleValued_iff_textsOf : SingleValued captured ↔
    ∀ id, ∀ s ∈ textsOf captured id, ∀ s' ∈ textsOf captured id, s = s' := by
  constructor
  · intro h id s hs s' hs'
    exact h (id, s) (mem_textsOf.mp hs) (id, s') (mem_textsOf.mp hs') rfl
  · rintro h ⟨id, s⟩ hs ⟨id', s'⟩ hs' hid
    obtain rfl : id = id' := hid
    exact h id s (mem_textsOf.mpr hs) s' (mem_textsOf.mpr hs')

theorem head?_eq_getLast? {α : Type} {as : List α} (h : ∀ a ∈ as, ∀ b ∈ as, a = b) :
    as.head? = as.getLast? := by
  cases as with
  | nil => rfl
  | cons a as =>
    have hlast := h a List.mem_cons_self _ (List.getLast_mem (List.cons_ne_nil a as))
    rw [List.head?_cons, List.getLast?_eq_some_getLast (List.cons_ne_nil a as), ← hlast]

/-- A term with a slot has a text. -/
theorem textsOf_zip_ne_nil (hlen : ids.length ≤ texts.length) (hid : id ∈ ids) :
    textsOf (ids.zip texts) id ≠ [] := by
  rw [← List.map_fst_zip hlen] at hid
  obtain ⟨⟨id, text⟩, hp, rfl⟩ := List.mem_map.mp hid
  exact List.ne_nil_of_mem (mem_textsOf.mpr hp)

/-! ## the text that is chosen for a term -/

namespace Template

/-- The text that is chosen for a term. -/
def chosen? (d : Duplicates) (captured : List (TermId × Text)) (id : TermId) : Option Text :=
  match d with
  | .lastWins => captured.reverse.lookup id
  | _ => captured.lookup id

/-- The first of the texts of a term, or the last. -/
theorem chosen?_eq (d : Duplicates) (captured : List (TermId × Text)) (id : TermId) :
    chosen? d captured id
      = if d = .lastWins then (textsOf captured id).getLast? else (textsOf captured id).head? := by
  cases d with
  | lastWins =>
    show captured.reverse.lookup id = (textsOf captured id).getLast?
    rw [lookup_eq_head?_textsOf, textsOf_reverse, List.head?_reverse]
  | requireEqual => exact lookup_eq_head?_textsOf captured id
  | firstWins => exact lookup_eq_head?_textsOf captured id

theorem chosen?_ne_none (d : Duplicates) (h : textsOf captured id ≠ []) :
    chosen? d captured id ≠ none := by
  rw [chosen?_eq]
  split
  · exact fun hnone => h (List.getLast?_eq_none_iff.mp hnone)
  · exact fun hnone => h (List.head?_eq_none_iff.mp hnone)

theorem chosen?_of_mem {d : Duplicates} {p : TermId × Text}
    (h : SingleValued captured) (hp : p ∈ captured) : chosen? d captured p.1 = some p.2 := by
  cases d with
  | lastWins =>
    exact (h.of_subset (List.reverse_subset.mpr (List.Subset.refl _))).lookup
      (List.mem_reverse.mpr hp)
  | requireEqual => exact h.lookup hp
  | firstWins => exact h.lookup hp

theorem chosen?_zip_map {d : Duplicates} (value : TermId → Text) (hid : id ∈ ids) :
    chosen? d (ids.zip (ids.map value)) id = some (value id) := by
  have hzip : (id, value id) ∈ ids.zip (ids.map value) := by
    rw [← List.map_prod_left_eq_zip]
    exact List.mem_map_of_mem hid
  exact chosen?_of_mem (singleValued_zip_map ids value) hzip

/-- A text is chosen for every term that has a slot. -/
theorem exists_map_chosen? (d : Duplicates) {terms : List TermId}
    (hlen : ids.length ≤ texts.length) (hslots : terms ⊆ ids) :
    ∃ values : List Text, terms.map (chosen? d (ids.zip texts)) = values.map some := by
  have hrange : terms.map (chosen? d (ids.zip texts)) ∈ Set.range (List.map some) := by
    rw [Set.range_list_map]
    intro text htext
    obtain ⟨id, hid, rfl⟩ := List.mem_map.mp htext
    have hne := textsOf_zip_ne_nil hlen (hslots hid)
    exact Option.ne_none_iff_exists.mp (chosen?_ne_none d hne)
  obtain ⟨values, hvalues⟩ := hrange
  exact ⟨values, hvalues.symm⟩

/-- If no term captured two different texts, every policy chooses the same. -/
theorem chosen?_eq_chosen? (h : SingleValued captured) (d d' : Duplicates)
    (id : TermId) : chosen? d captured id = chosen? d' captured id := by
  have hends := head?_eq_getLast? (singleValued_iff_textsOf.mp h id)
  rw [chosen?_eq, chosen?_eq, hends, ite_self, ite_self]

/-! ## one text for every term -/

theorem mapM_eq_some_iff {α β : Type} {f : α → Option β} {as : List α} {bs : List β} :
    as.mapM f = some bs ↔ as.map f = bs.map some := by
  induction as generalizing bs with
  | nil => cases bs <;> simp
  | cons a as ih => cases bs <;> simp [Option.bind_eq_some_iff, ih]

variable {t : Template} {input : Text} {values : List Text}

theorem values?_eq (t : Template) (captured : List (TermId × Text)) :
    t.values? captured
      = t.terms.mapM fun term => chosen? t.config.duplicates captured term.id := by
  rw [values?]
  cases t.config.duplicates <;> rfl

theorem values?_eq_some_iff :
    t.values? captured = some values ↔
      (t.terms.map fun term => chosen? t.config.duplicates captured term.id) = values.map some := by
  rw [values?_eq, mapM_eq_some_iff]

theorem length_of_values? (h : t.values? captured = some values) :
    values.length = t.terms.length := by
  have hlen := congrArg List.length (values?_eq_some_iff.mp h)
  rw [List.length_map, List.length_map] at hlen
  exact hlen.symm

/-- Every term has a slot, so no term is left without a text. -/
theorem Linked.exists_values (h : t.Linked) (hsplits : t.layout.Splits input texts) :
    ∃ values, t.values? (t.layout.slots.zip texts) = some values := by
  obtain ⟨values, hvalues⟩ := exists_map_chosen? t.config.duplicates
    (Nat.le_of_eq hsplits.length_slots) h.ids_subset_slots
  rw [List.map_map] at hvalues
  exact ⟨values, values?_eq_some_iff.mpr hvalues⟩

/-- An anchor that is placed once has one text. -/
theorem Linked.singleValued_of_nodup (h : t.Linked) (hanchors : t.anchors.Nodup)
    (hsplits : t.layout.Splits input texts) : SingleValued (t.layout.slots.zip texts) := by
  rw [h.anchors_eq] at hanchors
  exact singleValued_zip_of_nodup (Nat.le_of_eq hsplits.length_slots) hanchors.of_map

end Template

end FormatInverse
