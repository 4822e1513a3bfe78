import FormatInverse.Proofs.Layout.Marked
import FormatInverse.Proofs.Template.Acceptance

/-!
# Rendering and recovering are inverse

* `render_of_recover`   what is recovered from an input renders to that input;
* `recover_render`      what was rendered is recovered, if the delimiters mark their places.

Neither direction holds without a condition.  Where an anchor is placed twice and its slots need not
agree, the texts of all but one of its slots are lost; and an input can have other splits than the
one it was rendered from.
-/

namespace FormatInverse

namespace Captures

/-- the text recovered for an anchor -/
def value? (r : Captures) (anchor : Text) : Option Text :=
  (r.placeholders.find? (·.anchor.text == anchor)).map (·.value)

theorem value?_of_mem {r : Captures} (h : (r.placeholders.map (·.anchor.text)).Nodup)
    {p : Placeholder} (hp : p ∈ r.placeholders) : r.value? p.anchor.text = some p.value := by
  rw [value?, Template.find?_of_nodup_map h hp]
  rfl

end Captures

namespace Template

variable {t : Template} {config : Config} {text input : Text} {r : Captures}

/-! ## one text for every anchor -/

namespace Filling

variable {chosen : TermId → Option Text}

theorem nodup (hfilling : t.Filling r chosen) (h : t.Linked) :
    (r.placeholders.map (·.anchor.text)).Nodup := by
  have htexts := hfilling.map fun p : Anchor × Option Text => p.1.text
  rw [List.map_map, List.map_map] at htexts
  exact htexts.nodup_iff.mpr h.nodup_anchors

/-- Every slot finds the text of its term under its anchor. -/
theorem value?_anchorText (hfilling : t.Filling r chosen) (h : t.Linked) {id : TermId}
    (hid : id ∈ t.layout.slots) : r.value? (t.anchorText id) = chosen id := by
  obtain ⟨term, hterm, rfl⟩ := h.exists_term_of_mem_slots hid
  have hmem := hfilling.mem_iff.mpr (List.mem_map_of_mem hterm)
  obtain ⟨p, hp, heq⟩ := List.mem_map.mp hmem
  obtain ⟨hanchor, hvalue⟩ := Prod.mk.inj heq
  rw [h.anchorText_id hterm, ← hanchor, Captures.value?_of_mem (hfilling.nodup h) hp, hvalue]

end Filling

/-! ## from an input to what is recovered and back -/

/-- Nothing is lost or invented: if all slots of an anchor had to agree, or no anchor has two slots,
then every anchor has just one placeholder, and the template with the recovered texts in place of
its anchors is the input. -/
theorem render_of_recover (hcompile : compile config text = .ok t)
    (hsize : Text.bytes text < 2 ^ 32) (hrecover : t.recover input = .ok (some r))
    (hslots : config.duplicates = .requireEqual ∨ t.anchors.Nodup) :
    (r.placeholders.map (·.anchor.text)).Nodup ∧
    (∀ anchor ∈ t.anchors, (r.value? anchor).isSome) ∧
    t.render (fun anchor => (r.value? anchor).getD []) = input := by
  have hlinked := linked_of_compile hcompile hsize
  obtain ⟨texts, hfirst, hequal, hfilling⟩ := exists_first_of_recover hrecover
  have hlen := hfirst.1.length_slots
  have hsingle : SingleValued (t.layout.slots.zip texts) := by
    rcases hslots with hpolicy | hnodup
    · rw [← config_of_compile hcompile] at hpolicy
      exact hequal hpolicy
    · exact hlinked.singleValued_of_nodup hnodup hfirst.1
  have hvalue : ∀ p ∈ t.layout.slots.zip texts, r.value? (t.anchorText p.1) = some p.2 := by
    intro p hp
    rw [hfilling.value?_anchorText hlinked (List.of_mem_zip hp).1, chosen?_of_mem hsingle hp]
  refine ⟨hfilling.nodup hlinked, fun anchor hanchor => ?_, ?_⟩
  · rw [hlinked.anchors_eq, ← List.map_fst_zip (Nat.le_of_eq hlen), List.map_map] at hanchor
    obtain ⟨p, hp, rfl⟩ := List.mem_map.mp hanchor
    show (r.value? (t.anchorText p.1)).isSome
    rw [hvalue p hp]
    rfl
  · rw [hlinked.render_eq_fill, ← hfirst.1.fill_eq]
    congr 1
    refine map_eq_of_zip hlen fun p hp => ?_
    rw [hvalue p hp]
    rfl

/-- the texts of the sample: one holds a delimiter, the other overlaps the next -/
def sampleValue (anchor : Text) : Text :=
  if anchor = "\x7b0\x7d".toList then "x, y".toList else "-".toList

def sampleCaptures : Captures where
  template := sampleText
  input := "x, y, ---x, y".toList
  buckets := #[[⟨⟨"\x7b0\x7d".toList, 0, 0, none⟩, "x, y".toList⟩],
    [⟨⟨"\x7b1\x7d".toList, 1, 0, none⟩, "-".toList⟩]]

theorem recover_sample :
    (sample .standard).recover "x, y, ---x, y".toList = .ok (some sampleCaptures) := by cbv

theorem render_of_recover_sample :
    Text.bytes sampleText < 2 ^ 32 ∧ Config.standard.duplicates = .requireEqual ∧
    (sample .standard).render (fun anchor => (sampleCaptures.value? anchor).getD [])
      = "x, y, ---x, y".toList :=
  ⟨by decide, rfl,
    (render_of_recover compile_sample (by decide) recover_sample (Or.inl rfl)).2.2⟩

/-! ## from the texts of the anchors to what is recovered -/

/-- What was rendered is recovered, if the delimiters mark their places: every term has one
placeholder, with the text that it was rendered with. -/
theorem recover_render (hcompile : compile config text = .ok t)
    (hsize : Text.bytes text < 2 ^ 32)
    (hindex : ∀ term ∈ t.terms, term.anchor.index.toNat < 2 ^ 64 - 1) (value : Text → Text)
    (hmarked : Layout.Marked config.capture t.layout.delimiters (t.anchors.map value)) :
    ∃ r, t.recover (t.render value) = .ok (some r) ∧
      r.placeholders.Perm
        (t.terms.map fun term => ⟨term.anchor, value term.anchor.text⟩) := by
  have hlinked := linked_of_compile hcompile hsize
  rw [hlinked.anchors_eq, List.map_map, ← config_of_compile hcompile] at hmarked
  have hfirst := (hlinked.splits_render value).first_of_marked hmarked
  have hsingle := singleValued_zip_map t.layout.slots fun id => value (t.anchorText id)
  obtain ⟨r, hrecover⟩ :=
    (hlinked.exists_recover_iff_of_first hindex hfirst).mpr fun _ => hsingle
  refine ⟨r, hrecover, ?_⟩
  have hfilling := filling_of_recover hfirst hrecover
  -- the text chosen for a term is the one that its slots were rendered with
  have hchosen : (t.terms.map fun term => (term.anchor, chosen? t.config.duplicates
      (t.layout.slots.zip (t.layout.slots.map fun id => value (t.anchorText id))) term.id))
        = (t.terms.map fun term => (⟨term.anchor, value term.anchor.text⟩ : Placeholder)).map
            fun p => (p.anchor, some p.value) := by
    rw [List.map_map]
    refine List.map_congr_left fun term hterm => ?_
    rw [chosen?_zip_map _ (hlinked.id_mem_slots hterm), hlinked.anchorText_id hterm]
    rfl
  rw [Filling, hchosen, List.map_perm_map_iff] at hfilling
  · exact hfilling
  · rintro ⟨anchor, text⟩ ⟨anchor', text'⟩ heq
    cases heq
    rfl

theorem recover_render_sample :
    Text.bytes sampleText < 2 ^ 32 ∧
    (∀ term ∈ (sample .standard).terms, term.anchor.index.toNat < 2 ^ 64 - 1) ∧
    Layout.Marked .greedy (sample .standard).layout.delimiters
      ["x, y".toList, "-".toList, "x, y".toList] ∧
    ∃ r, (sample .standard).recover ((sample .standard).render sampleValue) = .ok (some r) ∧
      r.placeholders.Perm ((sample .standard).terms.map fun term =>
        ⟨term.anchor, sampleValue term.anchor.text⟩) := by
  have hanchors : (sample .standard).anchors.map sampleValue
      = ["x, y".toList, "-".toList, "x, y".toList] := by cbv
  have hmarked : Layout.Marked .greedy (sample .standard).layout.delimiters
      ["x, y".toList, "-".toList, "x, y".toList] := by decide
  refine ⟨by decide, by decide, hmarked, ?_⟩
  rw [← hanchors] at hmarked
  exact recover_render compile_sample (by decide) (by decide) sampleValue hmarked

end Template

end FormatInverse
