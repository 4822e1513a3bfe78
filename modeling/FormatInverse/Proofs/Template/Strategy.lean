import FormatInverse.Proofs.Template.Recover

/-!
# The strategy of a template does not matter

A strategy decides how the split of an input is found, and both find the same one.  Nothing else in
a template looks at it, so what is recovered from an input and whether the input matches do not
change with it (`recover_withStrategy`, `isMatch_withStrategy`).
-/

namespace FormatInverse.Template

/-- the template under another strategy -/
def withStrategy (t : Template) (s : Strategy) : Template :=
  { t with config := t.config.withStrategy s }

theorem ofTokens_withStrategy (config : Config) (s : Strategy) (text : Text) (toks : List Token) :
    ofTokens (config.withStrategy s) text toks = (ofTokens config text toks).withStrategy s := rfl

variable (t : Template) (s : Strategy) (input : Text)

theorem attempt_withStrategy : (t.withStrategy s).attempt input = t.attempt input := by
  have hranges : (t.withStrategy s).ranges? input = t.ranges? input :=
    Layout.ranges?_eq_ranges? _ _ _ _ _
  rw [attempt, attempt, hranges]
  rfl

theorem recover_withStrategy : (t.withStrategy s).recover input = t.recover input := by
  rw [recover, recover, attempt_withStrategy]
  rfl

theorem isMatch_withStrategy : (t.withStrategy s).isMatch input = t.isMatch input := by
  have hlayout : (t.withStrategy s).layout.isMatch (t.withStrategy s).config.strategy
      (t.withStrategy s).config.capture input
        = t.layout.isMatch t.config.strategy t.config.capture input :=
    Layout.isMatch_eq_isMatch _ _ _ _ _
  rw [isMatch, isMatch, attempt_withStrategy, hlayout]
  rfl

/-- The two strategies answer alike.  For every layout the pattern, whose match is the one that
trying the lengths of the slots in order finds first, gives the same ranges as the scan for the
delimiters, and matches the same inputs.  So a template that can be compiled under both strategies
recovers the same and matches the same under both. -/
theorem strategies_agree :
    (∀ (l : Layout) (m : Capture) (input : Text),
      l.ranges? .regex m input = (l.backtrack? m input).map l.ranges ∧
      l.ranges? .regex m input = l.ranges? .delimited m input ∧
      l.isMatch .regex m input = l.isMatch .delimited m input) ∧
    (∀ (config : Config) (text : Text) (s s' : Strategy) (t t' : Template),
      compile (config.withStrategy s) text = .ok t →
      compile (config.withStrategy s') text = .ok t' →
      ∀ input, t.recover input = t'.recover input ∧ t.isMatch input = t'.isMatch input) := by
  constructor
  · intro l m input
    refine ⟨?_, Layout.ranges?_eq_ranges? _ _ l m input, Layout.isMatch_eq_isMatch _ _ l m input⟩
    rw [← Layout.patternTexts?_eq_backtrack?]
    rfl
  · intro config text s s' t t' h h' input
    obtain ⟨-, -, -, toks, htoks, rfl⟩ := compile_eq_ok_iff.mp h
    obtain ⟨-, -, -, toks', htoks', rfl⟩ := compile_eq_ok_iff.mp h'
    obtain rfl : toks = toks' := Except.ok.inj (htoks.symm.trans htoks')
    simp only [ofTokens_withStrategy, recover_withStrategy, isMatch_withStrategy, and_self]

theorem strategies_agree_sample :
    compile (Config.standard.withStrategy .regex) sampleText = .ok (sample .standard) ∧
    compile (Config.standard.withStrategy .delimited) sampleText = .ok (sample .linearTime) ∧
    ∀ input, (sample .standard).recover input = (sample .linearTime).recover input ∧
      (sample .standard).isMatch input = (sample .linearTime).isMatch input :=
  ⟨compile_sample, compile_sample_linearTime,
    strategies_agree.2 .standard sampleText .regex .delimited _ _ compile_sample
      compile_sample_linearTime⟩

end FormatInverse.Template
