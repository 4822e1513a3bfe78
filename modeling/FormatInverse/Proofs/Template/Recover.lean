import FormatInverse.Proofs.Layout.Matcher
import FormatInverse.Proofs.Template.Slots

/-!
# What is recovered from an input

`recover_eq_some_iff` takes an answer apart: the split of the input that comes first, no conflict in
it, one text chosen for every term, and the buckets these are put into.  The lemmas before it say
what these parts do:

* `perm_of_buckets?`        the buckets hold one placeholder for every term, and no other;
* `exists_buckets`          they can be filled as long as their number is a word;
* `conflict?_eq_none_iff`   there is no conflict unless two slots of a term differ and must not.

So the answer has one placeholder for every term, with the text that is chosen for it
(`exists_first_of_recover`).
-/

namespace FormatInverse

/-! ## buckets -/

theorem flatten_modify_cons {α : Type} (a : α) {bs : List (List α)} {i : Nat}
    (h : i < bs.length) : (bs.modify i (a :: ·)).flatten.Perm (a :: bs.flatten) := by
  induction bs generalizing i with
  | nil => cases h
  | cons b bs ih =>
    cases i with
    | zero => exact List.Perm.refl _
    | succ i =>
      rw [List.modify_succ_cons, List.flatten_cons, List.flatten_cons]
      exact ((ih (Nat.lt_of_succ_lt_succ h)).append_left b).trans List.perm_middle

instance lawfulOrderSupUInt64 : Std.LawfulOrderSup UInt64 where
  max_le_iff a b c := by
    show (if a ≤ b then b else a) ≤ c ↔ _
    simp only [UInt64.le_iff_toNat_le]
    split <;> omega

namespace Template

section
variable {ps : List Placeholder} {buckets buckets' : Array (List Placeholder)}

theorem putInBucket_eq_some_iff {p : Placeholder} :
    putInBucket p buckets = some buckets' ↔
      p.anchor.index.toNat < buckets.size ∧
        buckets.modify p.anchor.index.toNat (p :: ·) = buckets' := by
  rw [putInBucket, Option.ite_none_right_eq_some, Option.some.injEq]

theorem perm_of_foldrM_putInBucket (h : ps.foldrM putInBucket buckets = some buckets') :
    buckets'.size = buckets.size ∧
      buckets'.toList.flatten.Perm (ps ++ buckets.toList.flatten) := by
  induction ps generalizing buckets' with
  | nil =>
    obtain rfl := Option.some.inj h
    exact ⟨rfl, List.Perm.refl _⟩
  | cons p ps ih =>
    rw [List.foldrM_cons, Option.bind_eq_bind, Option.bind_eq_some_iff] at h
    obtain ⟨between, hrest, hput⟩ := h
    obtain ⟨hsize, hperm⟩ := ih hrest
    obtain ⟨hindex, rfl⟩ := putInBucket_eq_some_iff.mp hput
    rw [Array.size_modify, Array.toList_modify]
    exact ⟨hsize, (flatten_modify_cons p hindex).trans (hperm.cons p)⟩

theorem exists_foldrM_putInBucket (h : ∀ p ∈ ps, p.anchor.index.toNat < buckets.size) :
    ∃ buckets', ps.foldrM putInBucket buckets = some buckets' := by
  induction ps with
  | nil => exact ⟨buckets, rfl⟩
  | cons p ps ih =>
    obtain ⟨between, hrest⟩ := ih fun q hq => h q (List.mem_cons_of_mem p hq)
    have hindex := h p List.mem_cons_self
    rw [← (perm_of_foldrM_putInBucket hrest).1] at hindex
    have hput := putInBucket_eq_some_iff.mpr ⟨hindex, rfl⟩
    rw [List.foldrM_cons, hrest]
    exact ⟨_, hput⟩

end

variable {t : Template} {values : List Text} {buckets : Array (List Placeholder)}

/-- the placeholders of the terms with their texts -/
def placed (t : Template) (values : List Text) : List Placeholder :=
  (t.terms.zip values).map fun (term, value) => ⟨term.anchor, value⟩

theorem anchors_placed (h : values.length = t.terms.length) :
    (t.placed values).map (·.anchor) = t.terms.map (·.anchor) := by
  calc (t.placed values).map (·.anchor)
      = ((t.terms.zip values).map Prod.fst).map (·.anchor) := by
        rw [placed, List.map_map, List.map_map]
        rfl
    _ = t.terms.map (·.anchor) := by rw [List.map_fst_zip (Nat.le_of_eq h.symm)]

theorem buckets?_eq (t : Template) (values : List Text) :
    t.buckets? values
      = (t.placed values).foldrM putInBucket (Array.replicate t.bucketCount.toNat []) :=
  List.foldrM_map.symm

theorem perm_of_buckets? (h : t.buckets? values = some buckets) :
    buckets.toList.flatten.Perm (t.placed values) := by
  rw [buckets?_eq] at h
  have hperm := (perm_of_foldrM_putInBucket h).2
  rw [Array.toList_replicate, List.flatten_replicate_nil, List.append_nil] at hperm
  exact hperm

/-- the number of buckets that the indices of the terms need -/
def bucketsNeeded (t : Template) : Nat := t.maxIndex?.elim 0 (·.toNat + 1)

theorem index_lt_bucketsNeeded {term : Term} (hterm : term ∈ t.terms) :
    term.anchor.index.toNat < t.bucketsNeeded := by
  have hmem : term.anchor.index ∈ t.terms.map (·.anchor.index) := List.mem_map_of_mem hterm
  cases hmax : t.maxIndex? with
  | none =>
    rw [List.max?_eq_none_iff.mp hmax] at hmem
    exact absurd hmem List.not_mem_nil
  | some i =>
    have hle := (List.max?_le_iff hmax).mp (UInt64.le_refl i) _ hmem
    rw [bucketsNeeded, hmax]
    exact Nat.lt_succ_of_le (UInt64.le_iff_toNat_le.mp hle)

/-- Some term has the last bucket, unless there are no terms. -/
theorem exists_bucketsNeeded (h : t.bucketsNeeded ≠ 0) :
    ∃ term ∈ t.terms, t.bucketsNeeded = term.anchor.index.toNat + 1 := by
  cases hmax : t.maxIndex? with
  | none =>
    rw [bucketsNeeded, hmax] at h
    exact absurd rfl h
  | some i =>
    obtain ⟨largest, hlargest, rfl⟩ := List.mem_map.mp (List.max?_mem hmax)
    refine ⟨largest, hlargest, ?_⟩
    rw [bucketsNeeded, hmax]
    rfl

theorem toNat_bucketCount (t : Template) : t.bucketCount.toNat = t.bucketsNeeded % 2 ^ 64 := by
  rw [bucketCount, bucketsNeeded]
  cases t.maxIndex? with
  | none => rfl
  | some i => exact UInt64.toNat_add i 1

theorem bucketsNeeded_le (h : ∀ term ∈ t.terms, term.anchor.index.toNat < 2 ^ 64 - 1) :
    t.bucketsNeeded ≤ 2 ^ 64 - 1 := by
  by_cases hzero : t.bucketsNeeded = 0
  · omega
  · obtain ⟨term, hterm, heq⟩ := exists_bucketsNeeded hzero
    have hlt := h term hterm
    omega

theorem index_lt_bucketCount (h : ∀ term ∈ t.terms, term.anchor.index.toNat < 2 ^ 64 - 1)
    {term : Term} (hterm : term ∈ t.terms) :
    term.anchor.index.toNat < t.bucketCount.toNat := by
  have hneeded := bucketsNeeded_le h
  have hlt := index_lt_bucketsNeeded hterm
  rw [toNat_bucketCount]
  omega

theorem exists_buckets (h : ∀ term ∈ t.terms, term.anchor.index.toNat < 2 ^ 64 - 1)
    (values : List Text) : ∃ buckets, t.buckets? values = some buckets := by
  rw [buckets?_eq]
  refine exists_foldrM_putInBucket fun p hp => ?_
  obtain ⟨⟨term, value⟩, hzip, rfl⟩ := List.mem_map.mp hp
  rw [Array.size_replicate]
  exact index_lt_bucketCount h (List.of_mem_zip hzip).1

/-! ## conflicts -/

theorem conflict?_eq_none_iff {captured : List (TermId × Text)} :
    t.conflict? captured = none ↔
      (t.config.duplicates = .requireEqual → SingleValued captured) := by
  rw [conflict?]
  cases t.config.duplicates with
  | requireEqual =>
    show firstConflict? [] captured = none ↔ _
    rw [firstConflict?_eq_none_iff SingleValued.nil, List.append_nil]
    exact ⟨fun h _ => h, fun h => h rfl⟩
  | lastWins => exact ⟨fun _ h => (by cases h), fun _ => rfl⟩
  | firstWins => exact ⟨fun _ h => (by cases h), fun _ => rfl⟩

/-! ## the answer -/

theorem captured_ranges {input : Text} {texts : List Text} (h : t.layout.Splits input texts) :
    t.captured input (t.layout.ranges texts) = t.layout.slots.zip texts :=
  congrArg t.layout.slots.zip h.slices_ranges

theorem ranges?_of_first {input : Text} {texts : List Text}
    (h : t.layout.First t.config.capture input texts) :
    t.ranges? input = some (t.layout.ranges texts) :=
  Layout.ranges?_eq_some_iff.mpr ⟨texts, h, rfl⟩

theorem attempt_of_no_conflict {input : Text} {texts : List Text}
    (hfirst : t.layout.First t.config.capture input texts)
    (hconflict : t.conflict? (t.layout.slots.zip texts) = none) :
    t.attempt input = (t.values? (t.layout.slots.zip texts)).elim .unfilled .filled := by
  simp only [attempt, ranges?_of_first hfirst, captured_ranges hfirst.1, hconflict]

theorem attempt_of_conflict {input : Text} {texts : List Text} {c : Conflict}
    (hfirst : t.layout.First t.config.capture input texts)
    (hconflict : t.conflict? (t.layout.slots.zip texts) = some c) :
    t.attempt input = .conflict (t.anchorText c.id) c.first c.later := by
  simp only [attempt, ranges?_of_first hfirst, captured_ranges hfirst.1, hconflict]

theorem attempt_eq_filled_iff {input : Text} :
    t.attempt input = .filled values ↔
      ∃ texts, t.layout.First t.config.capture input texts ∧
        t.conflict? (t.layout.slots.zip texts) = none ∧
        t.values? (t.layout.slots.zip texts) = some values := by
  constructor
  · intro h
    cases hranges : t.ranges? input with
    | none =>
      rw [attempt, hranges] at h
      cases h
    | some ranges =>
      obtain ⟨texts, hfirst, rfl⟩ := Layout.ranges?_eq_some_iff.mp hranges
      cases hconflict : t.conflict? (t.layout.slots.zip texts) with
      | some c =>
        rw [attempt_of_conflict hfirst hconflict] at h
        cases h
      | none =>
        rw [attempt_of_no_conflict hfirst hconflict] at h
        cases hvalues : t.values? (t.layout.slots.zip texts) with
        | none =>
          rw [hvalues] at h
          cases h
        | some values' =>
          rw [hvalues] at h
          obtain rfl := Attempt.filled.inj h
          exact ⟨texts, hfirst, hconflict, hvalues⟩
  · rintro ⟨texts, hfirst, hconflict, hvalues⟩
    rw [attempt_of_no_conflict hfirst hconflict, hvalues]
    rfl

theorem recover_eq_some_iff {input : Text} {r : Captures} :
    t.recover input = .ok (some r) ↔
      ∃ texts, t.layout.First t.config.capture input texts ∧
        t.conflict? (t.layout.slots.zip texts) = none ∧
        ∃ values, t.values? (t.layout.slots.zip texts) = some values ∧
          ∃ buckets, t.buckets? values = some buckets ∧ r = ⟨t.text, input, buckets⟩ := by
  rw [recover]
  constructor
  · intro h
    cases hattempt : t.attempt input with
    | filled values =>
      obtain ⟨texts, hfirst, hconflict, hvalues⟩ := attempt_eq_filled_iff.mp hattempt
      rw [hattempt] at h
      cases hbuckets : t.buckets? values with
      | none =>
        simp only [hbuckets] at h
        cases h
      | some buckets =>
        simp only [hbuckets] at h
        cases h
        exact ⟨texts, hfirst, hconflict, values, hvalues, buckets, hbuckets, rfl⟩
    | noSplit | conflict | unfilled =>
      rw [hattempt] at h
      cases h
  · rintro ⟨texts, hfirst, hconflict, values, hvalues, buckets, hbuckets, rfl⟩
    rw [attempt_eq_filled_iff.mpr ⟨texts, hfirst, hconflict, hvalues⟩]
    simp only [hbuckets]

/-! ## the texts of the terms in the answer -/

/-- The placeholders are one for every term, with the text that `chosen` gives the term. -/
def Filling (t : Template) (r : Captures) (chosen : TermId → Option Text) : Prop :=
  (r.placeholders.map fun p => (p.anchor, some p.value)).Perm
    (t.terms.map fun term => (term.anchor, chosen term.id))

theorem placed_of_values? {captured : List (TermId × Text)}
    (h : t.values? captured = some values) :
    ((t.placed values).map fun p => (p.anchor, some p.value))
      = t.terms.map fun term => (term.anchor, chosen? t.config.duplicates captured term.id) := by
  calc ((t.placed values).map fun p => (p.anchor, some p.value))
      = (t.terms.zip values).map (Prod.map (·.anchor) some) := by
        rw [placed, List.map_map]
        rfl
    _ = (t.terms.map (·.anchor)).zip (values.map some) := List.zip_map.symm
    _ = (t.terms.map (·.anchor)).zip
          (t.terms.map fun term => chosen? t.config.duplicates captured term.id) := by
        rw [values?_eq_some_iff.mp h]
    _ = _ := List.zip_map'

/-- What is recovered gives every term the text that is chosen for it. -/
theorem exists_first_of_recover {input : Text} {r : Captures} (h : t.recover input = .ok (some r)) :
    ∃ texts, t.layout.First t.config.capture input texts ∧
      (t.config.duplicates = .requireEqual → SingleValued (t.layout.slots.zip texts)) ∧
      t.Filling r (chosen? t.config.duplicates (t.layout.slots.zip texts)) := by
  obtain ⟨texts, hfirst, hconflict, values, hvalues, buckets, hbuckets, rfl⟩ :=
    recover_eq_some_iff.mp h
  refine ⟨texts, hfirst, conflict?_eq_none_iff.mp hconflict, ?_⟩
  have hperm := (perm_of_buckets? hbuckets).map fun p => (p.anchor, some p.value)
  rw [placed_of_values? hvalues] at hperm
  exact hperm

theorem filling_of_recover {input : Text} {texts : List Text} {r : Captures}
    (hfirst : t.layout.First t.config.capture input texts)
    (hrecover : t.recover input = .ok (some r)) :
    t.Filling r (chosen? t.config.duplicates (t.layout.slots.zip texts)) := by
  obtain ⟨texts', hfirst', -, hfilling⟩ := exists_first_of_recover hrecover
  obtain rfl := hfirst'.eq hfirst
  exact hfilling

end Template

end FormatInverse
