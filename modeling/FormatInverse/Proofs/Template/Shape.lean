import FormatInverse.Proofs.Template.Interning
import FormatInverse.Proofs.Template.RoundTrip

/-!
# What a template matches depends on its shape alone

The shape of a template is its literals and which of its slots have one anchor; how the anchors are
written is no part of it (`Template.SameShape`).  Terms are numbered in the order in which their
anchors first occur, so templates of one shape number their terms alike although their anchors
differ, and have the same layout (`SameShape.layout_eq`).  Matching and choosing texts look at
nothing but the layout, and only the placeholders that come out are named by the anchors.

For the numbering, lists that repeat in the same places are compared (`Alike`): one of them is the
other under a renaming that keeps different elements apart (`exists_renaming`), and such a renaming
keeps the order of first occurrences (`eraseDups_map`).
-/

namespace FormatInverse

/-! ## lists that repeat in the same places -/

section
variable {α β : Type}

/-- The lists have the same places, and agree on which of them hold one element. -/
structure Alike (xs : List α) (ys : List β) : Prop where
  length_eq : xs.length = ys.length
  shared : ∀ i < xs.length, ∀ j < xs.length, (xs[i]? = xs[j]? ↔ ys[i]? = ys[j]?)

instance [DecidableEq α] [DecidableEq β] (xs : List α) (ys : List β) : Decidable (Alike xs ys) :=
  decidable_of_iff (xs.length = ys.length ∧
      ∀ i < xs.length, ∀ j < xs.length, (xs[i]? = xs[j]? ↔ ys[i]? = ys[j]?))
    ⟨fun h => ⟨h.1, h.2⟩, fun h => ⟨h.1, h.2⟩⟩

variable [BEq α] [LawfulBEq α]

theorem exists_renaming {xs : List α} {ys : List β} [Inhabited β] (h : Alike xs ys) :
    ∃ f : α → β, ys = xs.map f ∧ ∀ x ∈ xs, ∀ y ∈ xs, f x = f y → x = y := by
  -- an element becomes what stands at the place where it occurs first
  let f : α → β := fun x => (ys[xs.idxOf x]?).getD default
  have hat : ∀ (i : Nat) (x : α), xs[i]? = some x → ys[i]? = some (f x) := by
    intro i x hx
    have hi : i < xs.length := (List.getElem?_eq_some_iff.mp hx).1
    have hlt : xs.idxOf x < xs.length := List.idxOf_lt_length_of_mem (List.mem_of_getElem? hx)
    have hfirst : xs[xs.idxOf x]? = some x := by
      rw [List.getElem?_eq_getElem hlt, List.getElem_idxOf hlt]
    have hsame := (h.shared i hi (xs.idxOf x) hlt).mp (hx.trans hfirst.symm)
    rw [h.length_eq] at hlt
    show ys[i]? = some ((ys[xs.idxOf x]?).getD default)
    rw [hsame, List.getElem?_eq_getElem hlt]
    rfl
  refine ⟨f, ?_, ?_⟩
  · apply List.ext_getElem?
    intro i
    rw [List.getElem?_map]
    cases hi : xs[i]? with
    | some x => exact hat i x hi
    | none =>
      rw [List.getElem?_eq_none_iff, h.length_eq] at hi
      exact List.getElem?_eq_none hi
  · intro x hx y hy hxy
    obtain ⟨i, hi⟩ := List.getElem?_of_mem hx
    obtain ⟨j, hj⟩ := List.getElem?_of_mem hy
    have hys : ys[i]? = ys[j]? := by rw [hat i x hi, hat j y hj, hxy]
    have hxs := (h.shared i (List.getElem?_eq_some_iff.mp hi).1 j
      (List.getElem?_eq_some_iff.mp hj).1).mpr hys
    rw [hi, hj] at hxs
    exact Option.some.inj hxs

/-- Renaming keeps the order of first occurrences. -/
theorem eraseDups_map [BEq β] [LawfulBEq β] {f : α → β} {xs : List α}
    (hf : ∀ x ∈ xs, ∀ y ∈ xs, f x = f y → x = y) :
    (xs.map f).eraseDups = xs.eraseDups.map f := by
  induction hn : xs.length using Nat.strong_induction_on generalizing xs with
  | _ n ih =>
    cases xs with
    | nil => rfl
    | cons x xs =>
      rw [List.map_cons, List.eraseDups_cons, List.eraseDups_cons, List.map_cons, List.filter_map]
      have hfilter : xs.filter ((fun b => !b == f x) ∘ f) = xs.filter fun b => !b == x := by
        apply List.filter_congr
        intro y hy
        have hiff : f y = f x ↔ y = x := by
          constructor
          · exact hf y (List.mem_cons_of_mem x hy) x List.mem_cons_self
          · intro h
            rw [h]
        show (!(f y == f x)) = !(y == x)
        rw [Bool.eq_iff_iff]
        simp only [Bool.not_eq_true', beq_eq_false_iff_ne, ne_eq, hiff]
      have hlt : (xs.filter fun b => !b == x).length < n := by
        rw [← hn, List.length_cons]
        exact Nat.lt_succ_of_le (List.length_filter_le _ _)
      have hsub : ∀ y ∈ xs.filter (fun b => !b == x), y ∈ x :: xs := by
        intro y hy
        exact List.mem_cons_of_mem x (List.mem_of_mem_filter hy)
      rw [hfilter, ih _ hlt (fun y hy z hz => hf y (hsub y hy) z (hsub z hz)) rfl]

/-- Names that are given in the order of first occurrences are settled by the repetitions. -/
theorem eq_of_named {xs ys : List α} {m n : Nat} {name : Nat → α} (h : Alike xs ys)
    (hxs : xs.eraseDups = (List.range m).map name)
    (hys : ys.eraseDups = (List.range n).map name) : xs = ys := by
  have : Inhabited α := ⟨name 0⟩
  obtain ⟨f, rfl, hf⟩ := exists_renaming h
  rw [eraseDups_map hf, hxs, List.map_map] at hys
  have hmn := congrArg List.length hys
  rw [List.length_map, List.length_map, List.length_range, List.length_range] at hmn
  rw [hmn, List.map_inj_left] at hys
  have hfix : ∀ x ∈ xs, f x = x := by
    intro x hx
    rw [← List.mem_eraseDups, hxs, hmn] at hx
    obtain ⟨i, hi, rfl⟩ := List.mem_map.mp hx
    exact hys i hi
  symm
  calc xs.map f = xs.map id := List.map_congr_left hfix
    _ = xs := List.map_id xs

end

theorem Layout.eq_of_literals_of_slots {l l' : Layout} (hliterals : l.literals = l'.literals)
    (hslots : l.slots = l'.slots) : l = l' := by
  obtain ⟨head, tail⟩ := l
  obtain ⟨head', tail'⟩ := l'
  obtain ⟨hhead, htail⟩ := List.cons.inj hliterals
  have hzip : (tail.map (·.1)).zip (tail.map (·.2)) = (tail'.map (·.1)).zip (tail'.map (·.2)) :=
    congrArg₂ List.zip hslots htail
  rw [List.zip_map', List.zip_map', List.map_id', List.map_id'] at hzip
  have hhead' : head = head' := hhead
  rw [hhead', hzip]

namespace Template

variable {t t' : Template} {config : Config} {text text' input : Text} {r r' : Captures}

/-! ## the numbers of the terms -/

/-- the number of the term with an anchor -/
def idOf (t : Template) (anchor : Text) : TermId := ((t.term? anchor).map (·.id)).getD ⟨0⟩

namespace Linked

theorem idOf_text (h : t.Linked) {term : Term} (hterm : term ∈ t.terms) :
    t.idOf term.anchor.text = term.id := by
  unfold idOf term? Term.find?
  rw [find?_of_nodup_map h.nodup_anchors hterm]
  rfl

theorem idOf_anchorText (h : t.Linked) {id : TermId} (hid : id ∈ t.layout.slots) :
    t.idOf (t.anchorText id) = id := by
  obtain ⟨term, hterm, rfl⟩ := h.exists_term_of_mem_slots hid
  rw [h.anchorText_id hterm, h.idOf_text hterm]

theorem slots_eq (h : t.Linked) : t.layout.slots = t.anchors.map t.idOf := by
  rw [h.anchors_eq, List.map_map]
  symm
  calc t.layout.slots.map (t.idOf ∘ t.anchorText) = t.layout.slots.map id :=
        List.map_congr_left fun id hid => h.idOf_anchorText hid
    _ = t.layout.slots := List.map_id _

/-- Slots share a term where placeholders share an anchor. -/
theorem alike_slots (h : t.Linked) : Alike t.anchors t.layout.slots := by
  constructor
  · rw [h.anchors_eq, List.length_map]
  · intro i _ j _
    constructor
    · intro hij
      rw [h.slots_eq, List.getElem?_map, List.getElem?_map, hij]
    · intro hij
      rw [h.anchors_eq, List.getElem?_map, List.getElem?_map, hij]

/-- The slots name the terms in their order. -/
theorem eraseDups_slots (h : t.Linked)
    (hanchors : t.terms.map (·.anchor.text) = t.anchors.eraseDups) :
    t.layout.slots.eraseDups = t.terms.map (·.id) := by
  have hinj : ∀ a ∈ t.anchors, ∀ b ∈ t.anchors, t.idOf a = t.idOf b → a = b := by
    intro a ha b hb hab
    rw [h.anchors_eq] at ha hb
    obtain ⟨id, hid, rfl⟩ := List.mem_map.mp ha
    obtain ⟨id', hid', rfl⟩ := List.mem_map.mp hb
    rw [h.idOf_anchorText hid, h.idOf_anchorText hid'] at hab
    rw [hab]
  rw [h.slots_eq, eraseDups_map hinj, ← hanchors, List.map_map]
  exact List.map_congr_left fun term hterm => h.idOf_text hterm

end Linked

theorem eraseDups_slots_of_compile (hcompile : compile config text = .ok t)
    (hsize : Text.bytes text < 2 ^ 32) :
    t.layout.slots.eraseDups = (List.range t.terms.length).map TermId.ofCount ∧
      t.layout.slots.eraseDups = t.terms.map (·.id) := by
  obtain ⟨hnumbered, -⟩ := numbered_of_compile hcompile hsize
  obtain ⟨-, -, hterms⟩ := place_of_compile hcompile
  have htexts := Term.texts_place [] t.toks
  rw [← hterms, List.map_nil, List.nil_append, List.removeAll_nil] at htexts
  have hslots := (linked_of_compile hcompile hsize).eraseDups_slots htexts
  exact ⟨hslots.trans hnumbered.ids, hslots⟩

/-! ## templates of one shape -/

/-- The templates have the same literals and as many slots, and share anchors between the same
slots. -/
structure SameShape (t t' : Template) : Prop where
  literals : t.layout.literals = t'.layout.literals
  anchors : Alike t.anchors t'.anchors

namespace SameShape

theorem alike_slots (h : t.SameShape t') (hlinked : t.Linked) (hlinked' : t'.Linked) :
    Alike t.layout.slots t'.layout.slots := by
  have hslots := hlinked.alike_slots
  have hslots' := hlinked'.alike_slots
  constructor
  · rw [← hslots.length_eq, ← hslots'.length_eq]
    exact h.anchors.length_eq
  · intro i hi j hj
    rw [← hslots.length_eq] at hi hj
    rw [← hslots.shared i hi j hj, h.anchors.shared i hi j hj]
    rw [h.anchors.length_eq] at hi hj
    exact hslots'.shared i hi j hj

theorem layout_eq (h : t.SameShape t') (hcompile : compile config text = .ok t)
    (hsize : Text.bytes text < 2 ^ 32) (hcompile' : compile config text' = .ok t')
    (hsize' : Text.bytes text' < 2 ^ 32) : t.layout = t'.layout := by
  have halike := h.alike_slots (linked_of_compile hcompile hsize)
    (linked_of_compile hcompile' hsize')
  exact Layout.eq_of_literals_of_slots h.literals <|
    eq_of_named halike (eraseDups_slots_of_compile hcompile hsize).1
      (eraseDups_slots_of_compile hcompile' hsize').1

end SameShape

/-! ## what the slots report -/

theorem Linked.value?_anchors (h : t.Linked) {texts : List Text}
    (hfirst : t.layout.First t.config.capture input texts)
    (hrecover : t.recover input = .ok (some r)) :
    t.anchors.map r.value?
      = t.layout.slots.map (chosen? t.config.duplicates (t.layout.slots.zip texts)) := by
  rw [h.anchors_eq, List.map_map]
  apply List.map_congr_left
  intro id hid
  exact (filling_of_recover hfirst hrecover).value?_anchorText h hid

/-- Indices, spans and formats do not matter: of two templates with one shape either both have an
answer for an input or none has, and then every slot has one text in both answers. -/
theorem recover_of_sameShape (hcompile : compile config text = .ok t)
    (hsize : Text.bytes text < 2 ^ 32)
    (hindex : ∀ term ∈ t.terms, term.anchor.index.toNat < 2 ^ 64 - 1)
    (hcompile' : compile config text' = .ok t') (hsize' : Text.bytes text' < 2 ^ 32)
    (hindex' : ∀ term ∈ t'.terms, term.anchor.index.toNat < 2 ^ 64 - 1)
    (hshape : t.SameShape t') (input : Text) :
    ((∃ r, t.recover input = .ok (some r)) ↔ ∃ r', t'.recover input = .ok (some r')) ∧
    (t.recover input = .ok none ↔ t'.recover input = .ok none) ∧
    ∀ r r', t.recover input = .ok (some r) → t'.recover input = .ok (some r') →
      ∃ values : List Text, t.anchors.map r.value? = values.map some ∧
        t'.anchors.map r'.value? = values.map some := by
  have hlinked := linked_of_compile hcompile hsize
  have hlinked' := linked_of_compile hcompile' hsize'
  have hlayout := hshape.layout_eq hcompile hsize hcompile' hsize'
  have hconfig : t.config = t'.config := by
    rw [config_of_compile hcompile, config_of_compile hcompile']
  have hsome : (∃ r, t.recover input = .ok (some r)) ↔ ∃ r', t'.recover input = .ok (some r') := by
    simp only [hlinked.exists_recover_iff hindex, hlinked'.exists_recover_iff hindex',
      conflict?_eq_none_iff, hlayout, hconfig]
  refine ⟨hsome, ?_, ?_⟩
  · rw [recover_eq_none_iff hindex, recover_eq_none_iff hindex', hsome]
  · intro r r' hr hr'
    obtain ⟨texts, hfirst, -⟩ := recover_eq_some_iff.mp hr
    have hvalues := hlinked.value?_anchors hfirst hr
    rw [hlayout, hconfig] at hfirst hvalues
    have hvalues' := hlinked'.value?_anchors hfirst hr'
    obtain ⟨values, hchosen⟩ := exists_map_chosen? t'.config.duplicates
      (Nat.le_of_eq hfirst.1.length_slots) (List.Subset.refl t'.layout.slots)
    exact ⟨values, hvalues.trans hchosen, hvalues'.trans hchosen⟩

/-- the shape of the sample, with other indices, a span and formats -/
def relabelledText : Text := "\x7b7,3:#\x7d, \x7b2\x7d--\x7b7,3:#\x7d".toList

def relabelled : Template where
  text := relabelledText
  terms := [⟨⟨0⟩, "\x7b7,3:#\x7d".toList, 7, 3, some ['#']⟩, ⟨⟨1⟩, "\x7b2\x7d".toList, 2, 0, none⟩]
  layout := ⟨[], [(⟨0⟩, ", ".toList), (⟨1⟩, "--".toList), (⟨0⟩, [])]⟩
  config := .standard

-- the format is looked up in the table of letters and digits
set_option maxRecDepth 2000 in
theorem compile_relabelled : compile .standard relabelledText = .ok relabelled := by cbv

set_option maxRecDepth 2000 in
theorem sameShape_relabelled : (sample .standard).SameShape relabelled := by
  have hanchors : (sample .standard).anchors
      = ["\x7b0\x7d".toList, "\x7b1\x7d".toList, "\x7b0\x7d".toList] := by cbv
  have hanchors' : relabelled.anchors
      = ["\x7b7,3:#\x7d".toList, "\x7b2\x7d".toList, "\x7b7,3:#\x7d".toList] := by cbv
  refine ⟨rfl, ?_⟩
  rw [hanchors, hanchors']
  decide

theorem recover_of_sameShape_relabelled :
    Text.bytes sampleText < 2 ^ 32 ∧ Text.bytes relabelledText < 2 ^ 32 ∧
    (∀ term ∈ (sample .standard).terms, term.anchor.index.toNat < 2 ^ 64 - 1) ∧
    (∀ term ∈ relabelled.terms, term.anchor.index.toNat < 2 ^ 64 - 1) ∧
    (sample .standard).SameShape relabelled ∧
    (sample .standard).recover "x, y, ---x, y".toList = .ok (some sampleCaptures) ∧
    ∃ (r : Captures) (values : List Text), relabelled.recover "x, y, ---x, y".toList = .ok (some r) ∧
      (sample .standard).anchors.map sampleCaptures.value? = values.map some ∧
      relabelled.anchors.map r.value? = values.map some := by
  obtain ⟨hsome, -, hvalues⟩ := recover_of_sameShape compile_sample (by decide) (by decide)
    compile_relabelled (by decide) (by decide) sameShape_relabelled "x, y, ---x, y".toList
  obtain ⟨r, hr⟩ := hsome.mp ⟨_, recover_sample⟩
  obtain ⟨values, h, h'⟩ := hvalues _ _ recover_sample hr
  exact ⟨by decide, by decide, by decide, by decide, sameShape_relabelled, recover_sample, r, values,
    hr, h, h'⟩

end Template

end FormatInverse
