import FormatInverse.Log
import FormatInverse.Proofs.Template.Duplicates

/-!
# The records of an input that is not accepted

An input that is not accepted leaves one record, and the record tells which of the two reasons it
was: there is no split, or the slots of one term have to agree and do not.  Then it names the slot
where that shows first (`Conflict.IsFirst`), with the first text of its term and its own.

Asking whether an input matches leaves the record of a conflict and no other.  It looks at the
texts only where a term has two slots, and elsewhere there is no conflict to record.
-/

namespace FormatInverse

variable {seen passed captured : List (TermId × Text)} {c : Conflict}

/-- The conflict is at the first slot whose text differs from the first text of its term. -/
def Conflict.IsFirst (c : Conflict) (captured : List (TermId × Text)) : Prop :=
  ∃ before after, captured = before ++ (c.id, c.later) :: after ∧
    (∀ p ∈ before, (textsOf captured p.1).head? = some p.2) ∧
    (textsOf captured c.id).head? = some c.first ∧ c.first ≠ c.later

/-! ## the scan for a conflict -/

theorem lookup_concat (passed : List (TermId × Text)) (p : TermId × Text) (id : TermId) :
    (passed ++ [p]).lookup id
      = if id = p.1 then (passed.lookup id).or (some p.2) else passed.lookup id := by
  obtain ⟨id', text⟩ := p
  rw [List.lookup_append]
  split_ifs with h
  · rw [h, List.lookup_cons_self]
  · have hne : (id == id') = false := beq_eq_false_iff_ne.mpr h
    rw [List.lookup_cons, hne, List.lookup_nil, Option.or_none]

/-- A term that is met for the first time is kept with its text. -/
theorem lookup_cons_eq_lookup_concat (hseen : ∀ id, seen.lookup id = passed.lookup id)
    {p : TermId × Text} (hnew : seen.lookup p.1 = none) (id : TermId) :
    (p :: seen).lookup id = (passed ++ [p]).lookup id := by
  rw [lookup_concat, ← hseen]
  split_ifs with h
  · rw [h, hnew, List.lookup_cons_self, Option.none_or]
  · have hne : (id == p.1) = false := beq_eq_false_iff_ne.mpr h
    rw [List.lookup_cons, hne]

/-- Of a term that was met before, the first text is kept. -/
theorem lookup_eq_lookup_concat (hseen : ∀ id, seen.lookup id = passed.lookup id)
    {p : TermId × Text} {first : Text} (hold : seen.lookup p.1 = some first) (id : TermId) :
    seen.lookup id = (passed ++ [p]).lookup id := by
  rw [lookup_concat, ← hseen]
  split_ifs with h
  · rw [h, hold, Option.some_or]
  · rfl

/-- The scan stops at the first slot that differs, when the slots before it are passed. -/
theorem exists_of_firstConflict? (hseen : ∀ id, seen.lookup id = passed.lookup id)
    (h : firstConflict? seen captured = some c) :
    ∃ before after, captured = before ++ (c.id, c.later) :: after ∧
      (∀ p ∈ before, (passed ++ captured).lookup p.1 = some p.2) ∧
      (passed ++ captured).lookup c.id = some c.first ∧ c.first ≠ c.later := by
  induction captured generalizing seen passed with
  | nil => cases h
  | cons p rest ih =>
    obtain ⟨id, text⟩ := p
    have hhead : (passed ++ (id, text) :: rest).lookup id
        = (seen.lookup id).or (some text) := by
      rw [List.lookup_append, ← hseen, List.lookup_cons_self]
    -- a slot that agrees is passed, and the slot that differs is found behind it
    have hpass : ∀ seen', (∀ id', seen'.lookup id' = (passed ++ [(id, text)]).lookup id') →
        (seen.lookup id).or (some text) = some text → firstConflict? seen' rest = some c →
        ∃ before after, (id, text) :: rest = before ++ (c.id, c.later) :: after ∧
          (∀ p ∈ before, (passed ++ (id, text) :: rest).lookup p.1 = some p.2) ∧
          (passed ++ (id, text) :: rest).lookup c.id = some c.first ∧ c.first ≠ c.later := by
      intro seen' hseen' hfirst hrest
      obtain ⟨before, after, hcut, hbefore, hother, hne⟩ := ih hseen' hrest
      rw [List.append_assoc, List.singleton_append] at hbefore hother
      refine ⟨(id, text) :: before, after, congrArg ((id, text) :: ·) hcut, ?_, hother, hne⟩
      rw [List.forall_mem_cons]
      exact ⟨hhead.trans hfirst, hbefore⟩
    rw [firstConflict?] at h
    cases hl : seen.lookup id with
    | none =>
      rw [hl] at h
      exact hpass _ (lookup_cons_eq_lookup_concat hseen hl) (by rw [hl]; rfl) h
    | some first =>
      simp only [hl] at h
      split_ifs at h with heq
      · exact hpass _ (lookup_eq_lookup_concat hseen hl) (by rw [hl, heq]; rfl) h
      · cases h
        exact ⟨[], rest, rfl, List.forall_mem_nil _, by rw [hhead, hl]; rfl, heq⟩

theorem isFirst_of_firstConflict? (h : firstConflict? [] captured = some c) :
    c.IsFirst captured := by
  have hnothing : ∀ id, List.lookup id ([] : List (TermId × Text)) = List.lookup id [] :=
    fun _ => rfl
  obtain ⟨before, after, hcut, hbefore, hfirst, hne⟩ := exists_of_firstConflict? hnothing h
  rw [List.nil_append] at hbefore hfirst
  rw [lookup_eq_head?_textsOf] at hfirst
  refine ⟨before, after, hcut, fun p hp => ?_, hfirst, hne⟩
  rw [← lookup_eq_head?_textsOf]
  exact hbefore p hp

namespace Template

variable {t : Template} {config : Config} {text input : Text}

theorem isFirst_of_conflict? (h : t.conflict? captured = some c) : c.IsFirst captured := by
  rw [conflict?] at h
  cases hpolicy : t.config.duplicates with
  | requireEqual =>
    rw [hpolicy] at h
    exact isFirst_of_firstConflict? h
  | lastWins =>
    rw [hpolicy] at h
    cases h
  | firstWins =>
    rw [hpolicy] at h
    cases h

/-! ## the records -/

theorem log_of_noSplit (h : t.ranges? input = none) :
    t.recoverLog input = [.noMatch t input] ∧ t.matchLog input = [] := by
  have hattempt : t.attempt input = .noSplit := by rw [attempt, h]
  rw [recoverLog, matchLog, hattempt]
  exact ⟨rfl, ite_self _⟩

theorem log_of_no_conflict {texts : List Text}
    (hfirst : t.layout.First t.config.capture input texts)
    (hconflict : t.conflict? (t.layout.slots.zip texts) = none) :
    t.recoverLog input = [] ∧ t.matchLog input = [] := by
  rw [recoverLog, matchLog, attempt_of_no_conflict hfirst hconflict]
  cases t.values? (t.layout.slots.zip texts) with
  | none => exact ⟨rfl, ite_self _⟩
  | some values => exact ⟨rfl, ite_self _⟩

/-- Where slots can conflict, both look at the texts. -/
theorem Linked.log_of_conflict (h : t.Linked) {texts : List Text}
    (hfirst : t.layout.First t.config.capture input texts)
    (hconflict : t.conflict? (t.layout.slots.zip texts) = some c) :
    t.recoverLog input = [.rejected (t.anchorText c.id) c.first c.later] ∧
      t.matchLog input = [.rejected (t.anchorText c.id) c.first c.later] := by
  have hmay : t.mayConflict = true := by
    by_contra hnot
    rw [conflict?_eq_none_of_mayConflict h (eq_false_of_ne_true hnot) hfirst.1] at hconflict
    cases hconflict
  rw [recoverLog, matchLog, attempt_of_conflict hfirst hconflict, if_pos hmay]
  exact ⟨rfl, rfl⟩

theorem Linked.exists_term_of_isFirst (h : t.Linked) {texts : List Text}
    (hc : c.IsFirst (t.layout.slots.zip texts)) :
    ∃ term ∈ t.terms, term.id = c.id ∧ t.anchorText c.id = term.anchor.text := by
  obtain ⟨before, after, hcut, -⟩ := hc
  have hmem : (c.id, c.later) ∈ t.layout.slots.zip texts := by simp [hcut]
  obtain ⟨term, hterm, hid⟩ := h.exists_term_of_mem_slots (List.of_mem_zip hmem).1
  exact ⟨term, hterm, hid, hid ▸ h.anchorText_id hterm⟩

/-- An accepted input leaves no record.  One that is not accepted leaves one record of recovering:
that there is no split, or the first slot that differs from the first text of its term.  The second
record is also left by asking whether the input matches, which leaves no other. -/
theorem log_of_recover (hcompile : compile config text = .ok t) (hsize : Text.bytes text < 2 ^ 32)
    (hindex : ∀ term ∈ t.terms, term.anchor.index.toNat < 2 ^ 64 - 1) (input : Text) :
    (t.recover input = .ok none ∨ ∃ r, t.recover input = .ok (some r)) ∧
    (∀ r, t.recover input = .ok (some r) → t.recoverLog input = [] ∧ t.matchLog input = []) ∧
    (t.recover input = .ok none → ∃ record, t.recoverLog input = [record] ∧
      ((t.ranges? input = none ∧ record = .noMatch t input ∧ record.level = .trace ∧
          t.matchLog input = []) ∨
        ∃ ranges, t.ranges? input = some ranges ∧
          ∃ term ∈ t.terms, ∃ first later,
            Conflict.IsFirst ⟨term.id, first, later⟩ (t.captured input ranges) ∧
            record = .rejected term.anchor.text first later ∧ record.level = .debug ∧
            t.matchLog input = [record])) := by
  have hlinked := linked_of_compile hcompile hsize
  refine ⟨recover_cases hindex input, fun r hr => ?_, fun hnone => ?_⟩
  · obtain ⟨texts, hfirst, hconflict, -⟩ := recover_eq_some_iff.mp hr
    exact log_of_no_conflict hfirst hconflict
  · cases hranges : t.ranges? input with
    | none =>
      obtain ⟨hrecover, hmatch⟩ := log_of_noSplit hranges
      exact ⟨_, hrecover, Or.inl ⟨rfl, rfl, rfl, hmatch⟩⟩
    | some ranges =>
      obtain ⟨texts, hfirst, rfl⟩ := Layout.ranges?_eq_some_iff.mp hranges
      cases hconflict : t.conflict? (t.layout.slots.zip texts) with
      | none =>
        have haccepted := (hlinked.exists_recover_iff hindex).mpr ⟨texts, hfirst, hconflict⟩
        exact absurd haccepted ((recover_eq_none_iff hindex).mp hnone)
      | some c =>
        obtain ⟨hrecover, hmatch⟩ := hlinked.log_of_conflict hfirst hconflict
        have hc := isFirst_of_conflict? hconflict
        obtain ⟨term, hterm, hid, hanchor⟩ := hlinked.exists_term_of_isFirst hc
        rw [hanchor] at hrecover hmatch
        refine ⟨_, hrecover, Or.inr ⟨_, rfl, term, hterm, c.first, c.later, ?_, rfl, rfl, hmatch⟩⟩
        rw [captured_ranges hfirst.1, hid]
        exact hc

/-- The second slot of the first anchor is the first that differs. -/
theorem log_of_recover_sample :
    Text.bytes sampleText < 2 ^ 32 ∧
    (∀ term ∈ (sample .standard).terms, term.anchor.index.toNat < 2 ^ 64 - 1) ∧
    (sample .standard).recover "a, b--c".toList = .ok none ∧
    (∃ ranges, (sample .standard).ranges? "a, b--c".toList = some ranges ∧
      ∃ term ∈ (sample .standard).terms, ∃ first later,
        Conflict.IsFirst ⟨term.id, first, later⟩
          ((sample .standard).captured "a, b--c".toList ranges)) ∧
    (sample .standard).recoverLog "a, b--c".toList
      = [⟨.debug, "Anchor \"\x7b0\x7d\" captured \"a\" and \"c\", rejecting match"⟩] ∧
    (sample .standard).matchLog "a, b--c".toList
      = (sample .standard).recoverLog "a, b--c".toList := by
  have hranges : (sample .standard).ranges? "a, b--c".toList
      = some [⟨0, 1⟩, ⟨3, 4⟩, ⟨6, 7⟩] := by cbv
  have hnone : (sample .standard).recover "a, b--c".toList = .ok none := by cbv
  have hlog := log_of_recover compile_sample (by decide) (by decide) "a, b--c".toList
  obtain ⟨record, hrecover, hreason⟩ := hlog.2.2 hnone
  rcases hreason with ⟨hnosplit, -⟩ | ⟨ranges, h, term, hterm, first, later, hc, -, -, hmatch⟩
  · rw [hranges] at hnosplit
    cases hnosplit
  · exact ⟨by decide, by decide, hnone, ⟨ranges, h, term, hterm, first, later, hc⟩,
      by decide +kernel, hmatch.trans hrecover.symm⟩

end Template

end FormatInverse
