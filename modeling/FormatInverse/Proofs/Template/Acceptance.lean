import FormatInverse.Proofs.Template.Recover

/-!
# Which inputs are accepted

An input is accepted if it has a split, and its first split has no conflict between the slots of one
term (`Linked.exists_recover_iff`).  Two answers are measured by that:

* `isMatch_iff_recover`   `isMatch` tells which inputs are accepted, also where it leaves out the
                          look at the captured texts;
* `recover_render_iff`    a rendered template always has a split, but the first one need not be the
                          one it was rendered from, and may have a conflict.
-/

namespace FormatInverse.Template

variable {t : Template} {config : Config} {text input : Text}

/-! ## accepted inputs -/

theorem recover_cases (hindex : ∀ term ∈ t.terms, term.anchor.index.toNat < 2 ^ 64 - 1)
    (input : Text) : t.recover input = .ok none ∨ ∃ r, t.recover input = .ok (some r) := by
  rw [recover]
  cases t.attempt input with
  | noSplit | conflict | unfilled => exact Or.inl rfl
  | filled values =>
    obtain ⟨buckets, hbuckets⟩ := exists_buckets hindex values
    simp only [hbuckets]
    exact Or.inr ⟨_, rfl⟩

theorem recover_eq_none_iff (hindex : ∀ term ∈ t.terms, term.anchor.index.toNat < 2 ^ 64 - 1) :
    t.recover input = .ok none ↔ ¬ ∃ r, t.recover input = .ok (some r) := by
  constructor
  · rintro hnone ⟨r, hsome⟩
    rw [hnone] at hsome
    cases hsome
  · exact (recover_cases hindex input).resolve_right

namespace Linked

theorem exists_recover_iff (h : t.Linked)
    (hindex : ∀ term ∈ t.terms, term.anchor.index.toNat < 2 ^ 64 - 1) :
    (∃ r, t.recover input = .ok (some r)) ↔
      ∃ texts, t.layout.First t.config.capture input texts ∧
        t.conflict? (t.layout.slots.zip texts) = none := by
  constructor
  · rintro ⟨r, hr⟩
    obtain ⟨texts, hfirst, hconflict, -⟩ := recover_eq_some_iff.mp hr
    exact ⟨texts, hfirst, hconflict⟩
  · rintro ⟨texts, hfirst, hconflict⟩
    obtain ⟨values, hvalues⟩ := h.exists_values hfirst.1
    obtain ⟨buckets, hbuckets⟩ := exists_buckets hindex values
    exact ⟨_, recover_eq_some_iff.mpr
      ⟨texts, hfirst, hconflict, values, hvalues, buckets, hbuckets, rfl⟩⟩

/-- Of an input whose first split is known. -/
theorem exists_recover_iff_of_first (h : t.Linked) {texts : List Text}
    (hindex : ∀ term ∈ t.terms, term.anchor.index.toNat < 2 ^ 64 - 1)
    (hfirst : t.layout.First t.config.capture input texts) :
    (∃ r, t.recover input = .ok (some r)) ↔
      (t.config.duplicates = .requireEqual → SingleValued (t.layout.slots.zip texts)) := by
  rw [h.exists_recover_iff hindex, ← conflict?_eq_none_iff]
  constructor
  · rintro ⟨texts', hfirst', hconflict⟩
    rwa [hfirst.eq hfirst']
  · intro hconflict
    exact ⟨texts, hfirst, hconflict⟩

end Linked

/-! ## matching without a look at the texts -/

/-- Where there are as many slots as terms, every term has just one. -/
theorem Linked.nodup_slots (h : t.Linked) (hcount : t.slotCount = t.terms.length) :
    t.layout.slots.Nodup := by
  have hlen : t.layout.slots.length ≤ (t.terms.map (·.id)).length := by
    rw [Layout.slots_length, List.length_map]
    exact Nat.le_of_eq hcount
  have hperm := (h.nodup_ids.subperm h.ids_subset_slots).perm_of_length_le hlen
  exact hperm.nodup_iff.mp h.nodup_ids

theorem conflict?_eq_none_of_mayConflict (h : t.Linked) (hmay : t.mayConflict = false)
    {texts : List Text} (hsplits : t.layout.Splits input texts) :
    t.conflict? (t.layout.slots.zip texts) = none := by
  refine conflict?_eq_none_iff.mpr fun hpolicy => ?_
  rw [mayConflict, hpolicy, beq_self_eq_true, Bool.and_true, bne_eq_false_iff_eq] at hmay
  exact singleValued_zip_of_nodup (Nat.le_of_eq hsplits.length_slots) (h.nodup_slots hmay)

theorem isMatch_iff_exists_first (h : t.Linked) :
    t.isMatch input = true ↔
      ∃ texts, t.layout.First t.config.capture input texts ∧
        t.conflict? (t.layout.slots.zip texts) = none := by
  rw [isMatch]
  cases hmay : t.mayConflict with
  | true =>
    rw [if_pos rfl]
    constructor
    · intro hmatch
      cases hattempt : t.attempt input with
      | filled values =>
        obtain ⟨texts, hfirst, hconflict, -⟩ := attempt_eq_filled_iff.mp hattempt
        exact ⟨texts, hfirst, hconflict⟩
      | noSplit | conflict | unfilled =>
        rw [hattempt] at hmatch
        cases hmatch
    · rintro ⟨texts, hfirst, hconflict⟩
      obtain ⟨values, hvalues⟩ := h.exists_values hfirst.1
      rw [attempt_eq_filled_iff.mpr ⟨texts, hfirst, hconflict, hvalues⟩]
  | false =>
    rw [if_neg Bool.false_ne_true, Layout.isMatch_iff]
    constructor
    · rintro ⟨captured, hsplits⟩
      obtain ⟨texts, hfirst⟩ := hsplits.exists_first
      exact ⟨texts, hfirst, conflict?_eq_none_of_mayConflict h hmay hfirst.1⟩
    · rintro ⟨texts, hfirst, -⟩
      exact ⟨texts, hfirst.1⟩

/-- An input matches exactly if something is recovered from it, and does not exactly if nothing
is. -/
theorem isMatch_iff_recover (hcompile : compile config text = .ok t)
    (hsize : Text.bytes text < 2 ^ 32)
    (hindex : ∀ term ∈ t.terms, term.anchor.index.toNat < 2 ^ 64 - 1) (input : Text) :
    (t.isMatch input = true ↔ ∃ r, t.recover input = .ok (some r)) ∧
    (t.isMatch input = false ↔ t.recover input = .ok none) := by
  have hlinked := linked_of_compile hcompile hsize
  have hmatch : t.isMatch input = true ↔ ∃ r, t.recover input = .ok (some r) := by
    rw [isMatch_iff_exists_first hlinked, hlinked.exists_recover_iff hindex]
  refine ⟨hmatch, ?_⟩
  rw [recover_eq_none_iff hindex, ← hmatch, Bool.not_eq_true]

theorem isMatch_iff_recover_sample :
    Text.bytes sampleText < 2 ^ 32 ∧
    (∀ term ∈ (sample .standard).terms, term.anchor.index.toNat < 2 ^ 64 - 1) ∧
    ∀ input, ((sample .standard).isMatch input = true ↔
        ∃ r, (sample .standard).recover input = .ok (some r)) ∧
      ((sample .standard).isMatch input = false ↔ (sample .standard).recover input = .ok none) :=
  ⟨by decide, by decide, isMatch_iff_recover compile_sample (by decide) (by decide)⟩

/-! ## rendered templates -/

/-- A rendered template splits into the texts of the anchors. -/
theorem Linked.splits_render (h : t.Linked) (value : Text → Text) :
    t.layout.Splits (t.render value) (t.layout.slots.map fun id => value (t.anchorText id)) :=
  ⟨by rw [List.length_map, Layout.slots_length], (h.render_eq_fill value).symm⟩

/-- A rendered template has a split, and is accepted unless all slots of an anchor have to agree and
two of them do not in the split that comes first.  So it is always accepted where slots need not
agree, and where no anchor has two slots. -/
theorem recover_render_iff (hcompile : compile config text = .ok t)
    (hsize : Text.bytes text < 2 ^ 32)
    (hindex : ∀ term ∈ t.terms, term.anchor.index.toNat < 2 ^ 64 - 1) (value : Text → Text) :
    (∃ texts, t.layout.First config.capture (t.render value) texts ∧
      ((∃ r, t.recover (t.render value) = .ok (some r)) ↔
        (config.duplicates = .requireEqual → SingleValued (t.layout.slots.zip texts)))) ∧
    (t.recover (t.render value) = .ok none ∨ ∃ r, t.recover (t.render value) = .ok (some r)) ∧
    (config.duplicates ≠ .requireEqual ∨ t.anchors.Nodup →
      ∃ r, t.recover (t.render value) = .ok (some r)) := by
  have hlinked := linked_of_compile hcompile hsize
  obtain ⟨texts, hfirst⟩ := (hlinked.splits_render value).exists_first (m := t.config.capture)
  have hiff := hlinked.exists_recover_iff_of_first hindex hfirst
  rw [config_of_compile hcompile] at hfirst hiff
  refine ⟨⟨texts, hfirst, hiff⟩, recover_cases hindex _, ?_⟩
  rintro (hpolicy | hnodup)
  · exact hiff.mpr fun h => absurd h hpolicy
  · exact hiff.mpr fun _ => hlinked.singleValued_of_nodup hnodup hfirst.1

/-- texts for the sample: the one between the two equal ones holds the delimiter before it -/
def ambiguousValue (anchor : Text) : Text :=
  if anchor = "\x7b0\x7d".toList then "a".toList else "b, c".toList

/-- The longest text of the first slot is `a, b`, and the last slot has `a`. -/
theorem recover_render_ambiguous :
    compile .standard sampleText = .ok (sample .standard) ∧
    Text.bytes sampleText < 2 ^ 32 ∧
    (∀ term ∈ (sample .standard).terms, term.anchor.index.toNat < 2 ^ 64 - 1) ∧
    (sample .standard).render ambiguousValue = "a, b, c--a".toList ∧
    (sample .standard).recover ((sample .standard).render ambiguousValue) = .ok none := by
  refine ⟨compile_sample, by decide, by decide, by cbv, ?_⟩
  cbv

theorem compile_sample_legacy : compile .legacy sampleText = .ok (sample .legacy) := by cbv

/-- The same rendering is accepted where the slots of an anchor need not agree. -/
theorem recover_render_iff_sample :
    Text.bytes sampleText < 2 ^ 32 ∧
    (∀ term ∈ (sample .legacy).terms, term.anchor.index.toNat < 2 ^ 64 - 1) ∧
    Config.legacy.duplicates ≠ .requireEqual ∧
    ∃ r, (sample .legacy).recover ((sample .legacy).render ambiguousValue) = .ok (some r) :=
  ⟨by decide, by decide, by decide,
    (recover_render_iff compile_sample_legacy (by decide) (by decide) ambiguousValue).2.2
      (Or.inl (by decide))⟩

end FormatInverse.Template
