import FormatInverse.Proofs.Template.Render
import FormatInverse.Proofs.Template.Segment

/-!
# The terms of a compiled template

A term keeps the fields of the first placeholder that has its anchor; those of later placeholders
are dropped.  Nothing is lost by that, since the text of an anchor settles its fields
(`anchor_eq_of_text_eq`), and anchors with different texts never share a term.

`terms_of_compile` collects what holds of the terms and the layout: terms are numbered from zero, in
the order in which their anchors first occur (`texts_place`), and each slot names the term of its
own placeholder.
-/

namespace FormatInverse

namespace Token

/-- the anchor of a placeholder -/
def anchor? : Token → Option Anchor
  | literal _ => none
  | placeholder _ a => some a

end Token

/-! ## the text of an anchor -/

/-- Reading is a function of the text, so forms that are written alike stand for one anchor. -/
theorem Anchor.Form.anchor_eq_of_text_eq {limit : UInt64} {f g : Anchor.Form limit}
    (h : f.text = g.text) : f.anchor = g.anchor := by
  have happend : f.text ++ [] = g.text ++ [] := by rw [h]
  rw [f.text_append, g.text_append] at happend
  have hf := @read_form limit [] 0 f
  rw [(List.cons.inj happend).2, read_form 0 g] at hf
  exact (congrArg Prod.fst (Except.ok.inj hf)).symm

section
variable {limit : UInt64} {t : Text} {toks : List Token} {a b : Anchor}

theorem exists_form_of_mem_tokens (h : tokens limit t = .ok toks)
    (ha : a ∈ toks.filterMap Token.anchor?) : ∃ f : Anchor.Form limit, f.anchor = a := by
  obtain ⟨tok, htok, hanchor⟩ := List.mem_filterMap.mp ha
  cases tok with
  | literal s => cases hanchor
  | placeholder offset a' =>
    obtain rfl : a' = a := Option.some.inj hanchor
    obtain ⟨before, after, hcut⟩ := List.append_of_mem htok
    obtain ⟨segments, hsegments⟩ := exists_segments_of_tokensFrom h
    exact (Segment.placeholder_of_tokensAt (hsegments.trans hcut)).1

/-- Two placeholders of one template text with the same text have the same fields. -/
theorem anchor_eq_of_text_eq (h : tokens limit t = .ok toks)
    (ha : a ∈ toks.filterMap Token.anchor?) (hb : b ∈ toks.filterMap Token.anchor?)
    (htext : a.text = b.text) : a = b := by
  obtain ⟨f, rfl⟩ := exists_form_of_mem_tokens h ha
  obtain ⟨g, rfl⟩ := exists_form_of_mem_tokens h hb
  exact Anchor.Form.anchor_eq_of_text_eq htext

end

/-! ## the order of the terms -/

namespace Term

theorem removeAll_concat (xs ys : List Text) (y : Text) :
    xs.removeAll (ys ++ [y]) = (xs.removeAll ys).filter fun x => !x == y := by
  rw [List.removeAll, List.removeAll, List.filter_filter]
  refine List.filter_congr fun x _ => ?_
  by_cases hx : x = y
  · simp [hx]
  · simp [hx]

/-- The walk appends the anchors that are not met yet, each at its first occurrence. -/
theorem texts_place (terms : List Term) (toks : List Token) :
    (place terms toks).2.map (·.anchor.text)
      = terms.map (·.anchor.text) ++
        ((toks.flatMap Token.anchors).removeAll (terms.map (·.anchor.text))).eraseDups := by
  induction toks generalizing terms with
  | nil =>
    show terms.map (·.anchor.text) = _
    rw [List.flatMap_nil, List.nil_removeAll, List.eraseDups_nil, List.append_nil]
  | cons tok toks ih =>
    cases tok with
    | literal t => exact ih terms
    | placeholder offset a =>
      show (place (intern terms a).2 toks).2.map (·.anchor.text)
        = _ ++ ((a.text :: toks.flatMap Token.anchors).removeAll _).eraseDups
      rw [ih, List.cons_removeAll]
      rcases intern_cases terms a with ⟨term, hmem, htext, heq⟩ | ⟨hnew, heq⟩
      · have hknown : (terms.map (·.anchor.text)).contains a.text = true := by
          rw [List.contains_iff_mem, ← htext]
          exact List.mem_map_of_mem hmem
        rw [heq, if_neg (by rw [hknown]; exact Bool.noConfusion)]
      · have hunknown : (terms.map (·.anchor.text)).contains a.text = false := by
          rw [Bool.eq_false_iff, ne_eq, List.contains_iff_mem]
          intro hmem
          obtain ⟨term, hterm, htext⟩ := List.mem_map.mp hmem
          exact hnew term hterm htext
        rw [heq, if_pos hunknown, List.eraseDups_cons, List.map_append, List.append_assoc,
          List.map_singleton, removeAll_concat, List.singleton_append]

/-- The number of a term is its place. -/
theorem Numbered.toNat_id {terms : List Term} (h : Numbered terms)
    (hlen : terms.length ≤ 2 ^ 32) {k : Nat} {term : Term} (hk : terms[k]? = some term) :
    term.id.val.toNat = k := by
  have hlt : k < terms.length := (List.getElem?_eq_some_iff.mp hk).1
  have hid := congrArg (fun ids => ids[k]?) h.ids
  simp only [List.getElem?_map, hk, List.getElem?_range hlt, Option.map_some,
    Option.some.injEq] at hid
  rw [hid, TermId.ofCount, UInt32.toNat_ofNat']
  omega

theorem Numbered.pairwise_lt {terms : List Term} (h : Numbered terms)
    (hlen : terms.length ≤ 2 ^ 32) : terms.Pairwise fun a b => a.id.val < b.id.val := by
  rw [List.pairwise_iff_getElem]
  intro j k hj hk hjk
  rw [UInt32.lt_iff_toNat_lt, h.toNat_id hlen (List.getElem?_eq_getElem hj),
    h.toNat_id hlen (List.getElem?_eq_getElem hk)]
  exact hjk

end Term

namespace Template

variable {t : Template} {config : Config} {text : Text}

/-! ## the slots and their terms -/

/-- Where every placeholder has become a slot, slots and placeholders go together. -/
theorem forall₂_anchors_slots {terms : List Term} {toks : List Token} {pieces : List Piece}
    (h : List.Forall₂ (Token.Becomes terms) toks pieces) :
    List.Forall₂ (fun a id => ∃ term ∈ terms, term.id = id ∧ term.anchor.text = a.text)
      (toks.filterMap Token.anchor?) (pieces.flatMap Piece.slots) := by
  induction h with
  | nil => exact List.Forall₂.nil
  | cons hbecomes _ ih =>
    cases hbecomes with
    | literal t => exact ih
    | placeholder offset hmem htext => exact List.Forall₂.cons ⟨_, hmem, rfl, htext⟩ ih

/-- The slot of a placeholder names the term that has its anchor, with the same fields. -/
theorem Linked.forall₂_terms (h : t.Linked) {limit : UInt64}
    (htoks : tokens limit text = .ok t.toks) :
    List.Forall₂ (fun a id => ∃ term ∈ t.terms, term.id = id ∧ term.anchor = a)
      (t.toks.filterMap Token.anchor?) t.layout.slots := by
  obtain ⟨pieces, hlayout, hbecomes⟩ := h.becomes
  have hpairs := (List.forall₂_and_left _ _).mpr ⟨fun a ha => ha, forall₂_anchors_slots hbecomes⟩
  rw [hlayout, Layout.slots_ofPieces]
  refine hpairs.imp fun a id ⟨ha, term, hterm, hid, htext⟩ => ⟨term, hterm, hid, ?_⟩
  obtain ⟨offset, hmet⟩ := h.met term hterm
  exact anchor_eq_of_text_eq htoks (List.mem_filterMap.mpr ⟨_, hmet, rfl⟩) ha htext

/-- Terms are numbered from zero; no two have one anchor; they stand in the order in which their
anchors first occur.  There is a slot for every placeholder and one literal more, and the slot of a
placeholder names the term that has its anchor with the same fields, which is also the term that is
found for the text of the anchor. -/
theorem terms_of_compile (hcompile : compile config text = .ok t)
    (hsize : Text.bytes text < 2 ^ 32) :
    (∀ (k : Nat) (term : Term), t.terms[k]? = some term → term.id.val.toNat = k) ∧
    (t.terms.map (·.anchor.text)).Nodup ∧
    t.terms.map (·.anchor.text) = t.anchors.eraseDups ∧
    tokens config.limits.maxIndex text = .ok t.toks ∧
    t.layout.slots.length = (t.toks.filterMap Token.anchor?).length ∧
    t.layout.literals.length = t.layout.slots.length + 1 ∧
    List.Forall₂
      (fun a (id : TermId) => ∃ term, t.terms[id.val.toNat]? = some term ∧ term.id = id ∧
        term.anchor = a ∧ t.term? a.text = some term)
      (t.toks.filterMap Token.anchor?) t.layout.slots := by
  have hlinked := linked_of_compile hcompile hsize
  obtain ⟨htoks, -, hterms⟩ := place_of_compile hcompile
  obtain ⟨hnumbered, hlen⟩ := numbered_of_compile hcompile hsize
  have hslots := hlinked.forall₂_terms htoks
  have htexts := Term.texts_place [] t.toks
  rw [← hterms, List.map_nil, List.nil_append, List.removeAll_nil] at htexts
  refine ⟨fun k term hk => hnumbered.toNat_id (Nat.le_of_lt hlen) hk, hnumbered.anchors, htexts,
    htoks, hslots.length_eq.symm, ?_, hslots.imp fun a id => ?_⟩
  · rw [Layout.literals_length, Layout.slots_length]
  · rintro ⟨term, hterm, rfl, rfl⟩
    obtain ⟨k, hk⟩ := List.getElem?_of_mem hterm
    refine ⟨term, ?_, rfl, rfl, find?_of_nodup_map hlinked.nodup_anchors hterm⟩
    rw [hnumbered.toNat_id (Nat.le_of_lt hlen) hk]
    exact hk

/-- anchors with the same fields, written differently -/
def lookalikeText : Text := "\x7b0\x7d\x7b00\x7d-\x7b0:\x7d\x7b0\x7d".toList

def lookalike : Template where
  text := lookalikeText
  terms := [⟨⟨0⟩, "\x7b0\x7d".toList, 0, 0, none⟩, ⟨⟨1⟩, "\x7b00\x7d".toList, 0, 0, none⟩,
    ⟨⟨2⟩, "\x7b0:\x7d".toList, 0, 0, none⟩]
  layout := ⟨[], [(⟨0⟩, []), (⟨1⟩, ['-']), (⟨2⟩, []), (⟨0⟩, [])]⟩
  config := .standard

-- the brace behind the colon is looked up in the table of letters and digits
set_option maxRecDepth 2000 in
theorem compile_lookalike : compile .standard lookalikeText = .ok lookalike := by cbv

/-- Only the anchor that is placed twice has one term for two slots. -/
theorem terms_of_compile_lookalike :
    compile .standard lookalikeText = .ok lookalike ∧ Text.bytes lookalikeText < 2 ^ 32 ∧
    lookalike.terms.map (·.anchor.text) = lookalike.anchors.eraseDups ∧
    List.Forall₂
      (fun a (id : TermId) => ∃ term, lookalike.terms[id.val.toNat]? = some term ∧ term.id = id ∧
        term.anchor = a ∧ lookalike.term? a.text = some term)
      (lookalike.toks.filterMap Token.anchor?) [⟨0⟩, ⟨1⟩, ⟨2⟩, ⟨0⟩] := by
  have hsize : Text.bytes lookalikeText < 2 ^ 32 := by decide
  obtain ⟨-, -, htexts, -, -, -, hslots⟩ := terms_of_compile compile_lookalike hsize
  exact ⟨compile_lookalike, hsize, htexts, hslots⟩

end Template

end FormatInverse
