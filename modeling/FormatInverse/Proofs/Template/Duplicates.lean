import FormatInverse.Proofs.Template.Acceptance

/-!
# What becomes of an anchor that is placed several times

A policy for repeated anchors chooses among the texts that the slots of one term captured, and does
nothing else: the same template text compiles under each, to a template that differs in the policy
alone (`withDuplicates`).

`recover_withDuplicates` compares the answers.  As soon as the input has a split, the first and the
last texts are recovered under `firstWins` and `lastWins`; under `requireEqual` there is an answer
exactly if no term has two different texts, and then all three answers are the same.
-/

namespace FormatInverse.Template

/-! ## the template under another policy -/

/-- the template under another policy for repeated anchors -/
def withDuplicates (t : Template) (d : Duplicates) : Template :=
  { t with config := t.config.withDuplicates d }

variable {t : Template} {config : Config} {text input : Text}

theorem compile_withDuplicates (h : compile config text = .ok t) (d : Duplicates) :
    compile (config.withDuplicates d) text = .ok (t.withDuplicates d) := by
  obtain ⟨hfault, hlen, hpattern, toks, htoks, rfl⟩ := compile_eq_ok_iff.mp h
  exact compile_eq_ok_iff.mpr ⟨hfault, hlen, hpattern, toks, htoks, rfl⟩

/-- If no term captured two different texts, the answer is the same under every policy. -/
theorem recover_withDuplicates_of_singleValued {texts : List Text} (d : Duplicates)
    (hfirst : t.layout.First t.config.capture input texts)
    (hsingle : SingleValued (t.layout.slots.zip texts)) :
    (t.withDuplicates d).recover input = t.recover input := by
  have hvalues : (t.withDuplicates d).values? (t.layout.slots.zip texts)
      = t.values? (t.layout.slots.zip texts) := by
    rw [values?_eq, values?_eq]
    exact congrArg (t.terms.mapM ·) (funext fun term => chosen?_eq_chosen? hsingle _ _ _)
  have hattempt : (t.withDuplicates d).attempt input = t.attempt input := by
    rw [attempt_of_no_conflict hfirst (conflict?_eq_none_iff.mpr fun _ => hsingle), ← hvalues]
    exact attempt_of_no_conflict hfirst (conflict?_eq_none_iff.mpr fun _ => hsingle)
  rw [recover, recover, hattempt]
  rfl

/-! ## the terms of a linked template -/

/-- No term has two different texts. -/
def Agreeing (t : Template) (captured : List (TermId × Text)) : Prop :=
  ∀ term ∈ t.terms, ∀ s ∈ textsOf captured term.id, ∀ s' ∈ textsOf captured term.id, s = s'

instance (t : Template) (captured : List (TermId × Text)) : Decidable (t.Agreeing captured) :=
  inferInstanceAs (Decidable (∀ term ∈ t.terms, ∀ s ∈ textsOf captured term.id,
    ∀ s' ∈ textsOf captured term.id, s = s'))

/-- Slots belong to terms, so it is enough to look at the terms. -/
theorem Linked.agreeing_iff (h : t.Linked) {texts : List Text} :
    t.Agreeing (t.layout.slots.zip texts) ↔ SingleValued (t.layout.slots.zip texts) := by
  rw [singleValued_iff_textsOf]
  constructor
  · intro hterms id s hs
    obtain ⟨term, hterm, rfl⟩ := h.exists_term_of_mem_slots
      (List.of_mem_zip (mem_textsOf.mp hs)).1
    exact hterms term hterm s hs
  · intro hall term _
    exact hall term.id

/-- Where no two slots have to agree, an input with a split has an answer. -/
theorem Linked.exists_filling (h : t.Linked) {texts : List Text}
    (hindex : ∀ term ∈ t.terms, term.anchor.index.toNat < 2 ^ 64 - 1)
    (hpolicy : t.config.duplicates ≠ .requireEqual)
    (hfirst : t.layout.First t.config.capture input texts) :
    ∃ r, t.recover input = .ok (some r) ∧
      t.Filling r (chosen? t.config.duplicates (t.layout.slots.zip texts)) := by
  obtain ⟨r, hr⟩ := (h.exists_recover_iff_of_first hindex hfirst).mpr fun he => absurd he hpolicy
  exact ⟨r, hr, filling_of_recover hfirst hr⟩

/-! ## the policies compared -/

theorem recover_of_ranges?_eq_none (h : t.ranges? input = none) : t.recover input = .ok none := by
  simp only [recover, attempt, h]

/-- The template text compiles under every policy.  An input without a split is not accepted under
any.  Of an input with a split, every term has the first of its texts under `firstWins` and the last
under `lastWins`; under `requireEqual` the input is accepted exactly if no term has two different
texts, and then all three policies recover the same. -/
theorem recover_withDuplicates (hcompile : compile config text = .ok t)
    (hsize : Text.bytes text < 2 ^ 32)
    (hindex : ∀ term ∈ t.terms, term.anchor.index.toNat < 2 ^ 64 - 1) :
    (∀ d, compile (config.withDuplicates d) text = .ok (t.withDuplicates d)) ∧
    ∀ input,
      (t.ranges? input = none → ∀ d, (t.withDuplicates d).recover input = .ok none) ∧
      ∀ ranges, t.ranges? input = some ranges →
        ∃ first last,
          (t.withDuplicates .firstWins).recover input = .ok (some first) ∧
          t.Filling first (fun id => (textsOf (t.captured input ranges) id).head?) ∧
          (t.withDuplicates .lastWins).recover input = .ok (some last) ∧
          t.Filling last (fun id => (textsOf (t.captured input ranges) id).getLast?) ∧
          (t.Agreeing (t.captured input ranges) →
            (t.withDuplicates .requireEqual).recover input = .ok (some first) ∧ first = last) ∧
          (¬ t.Agreeing (t.captured input ranges) →
            (t.withDuplicates .requireEqual).recover input = .ok none) := by
  refine ⟨compile_withDuplicates hcompile, fun input => ⟨fun hnone d => ?_, ?_⟩⟩
  · exact recover_of_ranges?_eq_none hnone
  intro ranges hranges
  have hlinked := linked_of_compile hcompile hsize
  have hlinked' : ∀ d, (t.withDuplicates d).Linked := fun d =>
    linked_of_compile (compile_withDuplicates hcompile d) hsize
  obtain ⟨texts, hfirst, rfl⟩ := Layout.ranges?_eq_some_iff.mp hranges
  rw [captured_ranges hfirst.1, hlinked.agreeing_iff]
  have hne : Duplicates.firstWins ≠ .requireEqual := by decide
  have hne' : Duplicates.lastWins ≠ .requireEqual := by decide
  obtain ⟨first, hr, hfilling⟩ := (hlinked' .firstWins).exists_filling hindex hne hfirst
  obtain ⟨last, hr', hfilling'⟩ := (hlinked' .lastWins).exists_filling hindex hne' hfirst
  have hhead : chosen? .firstWins (t.layout.slots.zip texts)
      = fun id => (textsOf (t.layout.slots.zip texts) id).head? :=
    funext fun id => (chosen?_eq _ _ id).trans (if_neg (by decide))
  have hlast : chosen? .lastWins (t.layout.slots.zip texts)
      = fun id => (textsOf (t.layout.slots.zip texts) id).getLast? :=
    funext fun id => (chosen?_eq _ _ id).trans (if_pos rfl)
  rw [← hhead, ← hlast]
  refine ⟨first, last, hr, hfilling, hr', hfilling', fun hsingle => ?_, fun hdiffer => ?_⟩
  · have hsame := fun d => recover_withDuplicates_of_singleValued d hfirst hsingle
    rw [hsame] at hr hr'
    rw [hsame]
    rw [hr, Except.ok.injEq, Option.some.injEq] at hr'
    exact ⟨hr, hr'⟩
  · have haccepted := (hlinked' .requireEqual).exists_recover_iff_of_first hindex hfirst
    rw [recover_eq_none_iff (t := t.withDuplicates .requireEqual) hindex, haccepted]
    exact fun hagree => hdiffer (hagree rfl)

/-- The first anchor of the sample has two texts here: it gets `a` or `c`, or the input is not
accepted. -/
theorem recover_withDuplicates_sample :
    Text.bytes sampleText < 2 ^ 32 ∧
    (∀ term ∈ (sample .standard).terms, term.anchor.index.toNat < 2 ^ 64 - 1) ∧
    (sample .standard).ranges? "a, b--c".toList = some [⟨0, 1⟩, ⟨3, 4⟩, ⟨6, 7⟩] ∧
    ∃ first last,
      ((sample .standard).withDuplicates .firstWins).recover "a, b--c".toList = .ok (some first) ∧
      (first.placeholders.map fun p => (p.anchor.text, some p.value)).Perm
        [("\x7b0\x7d".toList, some ['a']), ("\x7b1\x7d".toList, some ['b'])] ∧
      ((sample .standard).withDuplicates .lastWins).recover "a, b--c".toList = .ok (some last) ∧
      (last.placeholders.map fun p => (p.anchor.text, some p.value)).Perm
        [("\x7b0\x7d".toList, some ['c']), ("\x7b1\x7d".toList, some ['b'])] ∧
      ((sample .standard).withDuplicates .requireEqual).recover "a, b--c".toList = .ok none := by
  have hranges : (sample .standard).ranges? "a, b--c".toList
      = some [⟨0, 1⟩, ⟨3, 4⟩, ⟨6, 7⟩] := by cbv
  obtain ⟨first, last, hfirst, hhead, hlast, hend, -, hrejected⟩ :=
    ((recover_withDuplicates compile_sample (by decide) (by decide)).2 _).2 _ hranges
  have hhead' := hhead.map fun p => (p.1.text, p.2)
  have hend' := hend.map fun p => (p.1.text, p.2)
  rw [List.map_map] at hhead' hend'
  exact ⟨by decide, by decide, hranges, first, last, hfirst, hhead', hlast, hend',
    hrejected (by decide)⟩

end FormatInverse.Template
