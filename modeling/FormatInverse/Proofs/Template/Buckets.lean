import FormatInverse.Proofs.Template.Interning
import FormatInverse.Proofs.Template.Recover

/-!
# The buckets of what is recovered

Placeholders are put into their buckets one after the other, each in front of those that are there
already, from the last term to the first.  So a bucket keeps its placeholders in the order of the
terms (`getElem?_of_foldrM_putInBucket`), and as no placeholder may miss its bucket, the number of
buckets cannot have wrapped around (`size_of_buckets?`).

* `buckets_of_recover`       which placeholders stand in which bucket;
* `bucketCount_of_compile`   the number of buckets is the word it is meant to be, unless some index
                             is the largest word, and then no match has an answer.

Memory for the buckets is taken for granted throughout.  A number of buckets that is a word can be
more than there is memory for, and of that nothing is said here.
-/

namespace FormatInverse.Template

section
variable {ps : List Placeholder} {buckets buckets' : Array (List Placeholder)}

/-- A bucket gets the placeholders of its index, in their order, in front of what it held. -/
theorem getElem?_of_foldrM_putInBucket (h : ps.foldrM putInBucket buckets = some buckets')
    (i : Nat) :
    buckets'[i]? = buckets[i]?.map (ps.filter (·.anchor.index.toNat = i) ++ ·) := by
  induction ps generalizing buckets' with
  | nil =>
    obtain rfl := Option.some.inj h
    simp
  | cons p ps ih =>
    rw [List.foldrM_cons, Option.bind_eq_bind, Option.bind_eq_some_iff] at h
    obtain ⟨between, hrest, hput⟩ := h
    obtain ⟨-, rfl⟩ := putInBucket_eq_some_iff.mp hput
    rw [Array.getElem?_modify, ih hrest]
    by_cases hi : p.anchor.index.toNat = i
    · simp [hi, Function.comp_def]
    · simp [hi]

theorem index_lt_of_foldrM_putInBucket (h : ps.foldrM putInBucket buckets = some buckets')
    {p : Placeholder} (hp : p ∈ ps) : p.anchor.index.toNat < buckets.size := by
  induction ps generalizing buckets' with
  | nil => cases hp
  | cons q ps ih =>
    rw [List.foldrM_cons, Option.bind_eq_bind, Option.bind_eq_some_iff] at h
    obtain ⟨between, hrest, hput⟩ := h
    rcases List.mem_cons.mp hp with rfl | hp
    · rw [← (perm_of_foldrM_putInBucket hrest).1]
      exact (putInBucket_eq_some_iff.mp hput).1
    · exact ih hrest hp

end

variable {t : Template} {config : Config} {text input : Text} {r : Captures}

theorem getElem?_of_buckets? {values : List Text} {buckets : Array (List Placeholder)}
    (h : t.buckets? values = some buckets) {i : Nat} (hi : i < buckets.size) :
    buckets[i]? = some ((t.placed values).filter (·.anchor.index.toNat = i)) := by
  rw [buckets?_eq] at h
  rw [(perm_of_foldrM_putInBucket h).1, Array.size_replicate] at hi
  rw [getElem?_of_foldrM_putInBucket h, Array.getElem?_replicate, if_pos hi]
  show some (_ ++ []) = _
  rw [List.append_nil]

section
variable {values : List Text} {buckets : Array (List Placeholder)}

theorem size_eq_bucketCount (h : t.buckets? values = some buckets) :
    buckets.size = t.bucketCount.toNat := by
  rw [buckets?_eq] at h
  rw [(perm_of_foldrM_putInBucket h).1, Array.size_replicate]

variable (hlen : values.length = t.terms.length)
include hlen

theorem index_lt_size_of_buckets? (h : t.buckets? values = some buckets) {term : Term}
    (hterm : term ∈ t.terms) : term.anchor.index.toNat < buckets.size := by
  have hanchor : term.anchor ∈ (t.placed values).map (·.anchor) := by
    rw [anchors_placed hlen]
    exact List.mem_map_of_mem hterm
  obtain ⟨p, hp, heq⟩ := List.mem_map.mp hanchor
  rw [buckets?_eq] at h
  rw [← heq, (perm_of_foldrM_putInBucket h).1]
  exact index_lt_of_foldrM_putInBucket h hp

/-- There is one bucket more than the largest index: if that number wrapped around, the placeholder
with the largest index would have no bucket. -/
theorem size_of_buckets? (h : t.buckets? values = some buckets) :
    buckets.size = t.bucketsNeeded := by
  have hsize := size_eq_bucketCount h
  rw [toNat_bucketCount] at hsize
  by_cases hzero : t.bucketsNeeded = 0
  · omega
  · obtain ⟨largest, hlargest, heq⟩ := exists_bucketsNeeded hzero
    have hlt := index_lt_size_of_buckets? hlen h hlargest
    have hword := largest.anchor.index.toNat_lt
    omega

theorem getElem?_anchors_of_buckets? (h : t.buckets? values = some buckets) {i : Nat}
    (hi : i < buckets.size) :
    buckets[i]?.map (·.map (·.anchor))
      = some ((t.terms.filter (·.anchor.index.toNat = i)).map (·.anchor)) := by
  rw [getElem?_of_buckets? h hi, Option.map_some, Option.some.injEq]
  calc ((t.placed values).filter (·.anchor.index.toNat = i)).map (·.anchor)
      = ((t.placed values).map (·.anchor)).filter (·.index.toNat = i) := by
        rw [List.filter_map]
        rfl
    _ = (t.terms.map (·.anchor)).filter (·.index.toNat = i) := by rw [anchors_placed hlen]
    _ = (t.terms.filter (·.anchor.index.toNat = i)).map (·.anchor) := List.filter_map

theorem perm_anchors_of_buckets? (h : t.buckets? values = some buckets) :
    (buckets.toList.flatten.map (·.anchor)).Perm (t.terms.map (·.anchor)) := by
  have hperm := (perm_of_buckets? h).map (·.anchor)
  rw [anchors_placed hlen] at hperm
  exact hperm

end

/-- What is recovered has one bucket more than the largest index.  The bucket of an index holds a
placeholder for each term with that index, and no other, in the order of the numbers of the terms;
the bucket of an index that no term has is empty.  All buckets together hold one placeholder for
every term. -/
theorem buckets_of_recover (hcompile : compile config text = .ok t)
    (hsize : Text.bytes text < 2 ^ 32) (hrecover : t.recover input = .ok (some r)) :
    r.size = t.maxIndex?.elim 0 (·.toNat + 1) ∧
    (t.terms.Pairwise fun a b => a.id.val < b.id.val) ∧
    (∀ i < r.size, (r.get? i).map (·.map (·.anchor))
      = some ((t.terms.filter (·.anchor.index.toNat = i)).map (·.anchor))) ∧
    (∀ i < r.size, (∀ term ∈ t.terms, term.anchor.index.toNat ≠ i) → r.get? i = some []) ∧
    (∀ term ∈ t.terms, term.anchor.index.toNat < r.size) ∧
    (r.placeholders.map (·.anchor)).Perm (t.terms.map (·.anchor)) ∧
    (t.terms.map (·.anchor.text)).Nodup := by
  obtain ⟨hnumbered, hlen⟩ := numbered_of_compile hcompile hsize
  obtain ⟨texts, -, -, values, hvalues, buckets, hbuckets, rfl⟩ := recover_eq_some_iff.mp hrecover
  have hcount := length_of_values? hvalues
  have hget : ∀ i < buckets.size, _ := fun i hi => getElem?_anchors_of_buckets? hcount hbuckets hi
  refine ⟨size_of_buckets? hcount hbuckets, hnumbered.pairwise_lt (Nat.le_of_lt hlen), hget,
    fun i hi hnone => ?_, fun term hterm => index_lt_size_of_buckets? hcount hbuckets hterm,
    perm_anchors_of_buckets? hcount hbuckets, hnumbered.anchors⟩
  have hempty : t.terms.filter (·.anchor.index.toNat = i) = [] :=
    List.filter_eq_nil_iff.mpr fun term hterm => by simpa using hnone term hterm
  have hbucket := hget i hi
  rw [hempty, List.map_nil] at hbucket
  obtain ⟨bucket, hbucket, hnil⟩ := Option.map_eq_some_iff.mp hbucket
  rw [List.map_eq_nil_iff.mp hnil] at hbucket
  exact hbucket

/-- two terms with one index, and an index that is skipped -/
def gappedText : Text := "\x7b2\x7d-\x7b0\x7d-\x7b2,1\x7d".toList

def gapped : Template where
  text := gappedText
  terms := [⟨⟨0⟩, "\x7b2\x7d".toList, 2, 0, none⟩, ⟨⟨1⟩, "\x7b0\x7d".toList, 0, 0, none⟩,
    ⟨⟨2⟩, "\x7b2,1\x7d".toList, 2, 1, none⟩]
  layout := ⟨[], [(⟨0⟩, ['-']), (⟨1⟩, ['-']), (⟨2⟩, [])]⟩
  config := .standard

def gappedCaptures : Captures where
  template := gappedText
  input := "a-b-c".toList
  buckets := #[[⟨⟨"\x7b0\x7d".toList, 0, 0, none⟩, ['b']⟩], [],
    [⟨⟨"\x7b2\x7d".toList, 2, 0, none⟩, ['a']⟩, ⟨⟨"\x7b2,1\x7d".toList, 2, 1, none⟩, ['c']⟩]]

theorem compile_gapped : compile .standard gappedText = .ok gapped := by cbv

theorem recover_gapped : gapped.recover "a-b-c".toList = .ok (some gappedCaptures) := by cbv

theorem buckets_of_recover_gapped :
    compile .standard gappedText = .ok gapped ∧ Text.bytes gappedText < 2 ^ 32 ∧
    gapped.recover "a-b-c".toList = .ok (some gappedCaptures) ∧
    gappedCaptures.size = 3 ∧
    (gappedCaptures.get? 2).map (·.map (·.anchor))
      = some [⟨"\x7b2\x7d".toList, 2, 0, none⟩, ⟨"\x7b2,1\x7d".toList, 2, 1, none⟩] ∧
    gappedCaptures.get? 1 = some [] ∧
    (gappedCaptures.placeholders.map (·.anchor)).Perm (gapped.terms.map (·.anchor)) := by
  obtain ⟨hsize, -, hget, hempty, -, hperm, -⟩ :=
    buckets_of_recover compile_gapped (by decide) recover_gapped
  exact ⟨compile_gapped, by decide, recover_gapped, hsize, hget 2 (by decide),
    hempty 1 (by decide) (by decide), hperm⟩

/-! ## an index without a bucket -/

/-- No index exceeds the limit. -/
theorem index_le_of_compile (hcompile : compile config text = .ok t) {term : Term}
    (hterm : term ∈ t.terms) : term.anchor.index.toNat ≤ config.limits.maxIndex.toNat := by
  obtain ⟨htoks, -, hterms⟩ := place_of_compile hcompile
  rw [hterms] at hterm
  rcases (Term.placing_place [] t.toks).met term hterm with hnil | ⟨offset, hmet⟩
  · exact absurd hnil List.not_mem_nil
  · obtain ⟨f, hf⟩ := exists_form_of_mem_tokens htoks (List.mem_filterMap.mpr ⟨_, hmet, rfl⟩)
    have hindex : f.anchor.index.toNat = f.index.value := UInt64.toNat_ofNatLT
    rw [← hf, hindex]
    exact f.index_le

/-- More buckets than a word can count cannot be filled. -/
theorem buckets?_eq_none (h : 2 ^ 64 - 1 < t.bucketsNeeded) {values : List Text}
    (hlen : values.length = t.terms.length) : t.buckets? values = none := by
  cases hbuckets : t.buckets? values with
  | none => rfl
  | some buckets =>
    have hneeded := size_of_buckets? hlen hbuckets
    have hcount := size_eq_bucketCount hbuckets
    have hword := t.bucketCount.toNat_lt
    omega

/-- The number of buckets is a word if the limit of the indices is not the largest word.  If it is
one, the word is that number, every term has a bucket, and every match has an answer; if it is none,
the word is zero and no match has one.

That is what the sum and the indices do, with memory for any number of buckets.  It is not all that
can leave a match without an answer: buckets for which there is no memory are left out here. -/
theorem bucketCount_of_compile (hcompile : compile config text = .ok t) :
    (config.limits.maxIndex.toNat < 2 ^ 64 - 1 → t.bucketsNeeded ≤ 2 ^ 64 - 1) ∧
    (t.bucketsNeeded ≤ 2 ^ 64 - 1 →
      t.bucketCount.toNat = t.bucketsNeeded ∧
      (∀ term ∈ t.terms, term.anchor.index.toNat < t.bucketCount.toNat) ∧
      ∀ input values, t.attempt input = .filled values → ∃ r, t.recover input = .ok (some r)) ∧
    (2 ^ 64 - 1 < t.bucketsNeeded →
      t.bucketCount = 0 ∧
      ∀ input values, t.attempt input = .filled values →
        t.recover input = .error .tooManyBuckets) := by
  have hcount := toNat_bucketCount t
  refine ⟨fun hlimit => ?_, fun hfits => ?_, fun hover => ?_⟩
  · refine bucketsNeeded_le fun term hterm => ?_
    have hle := index_le_of_compile hcompile hterm
    omega
  · have hindex : ∀ term ∈ t.terms, term.anchor.index.toNat < 2 ^ 64 - 1 := by
      intro term hterm
      have hlt := index_lt_bucketsNeeded hterm
      omega
    refine ⟨by omega, fun term hterm => index_lt_bucketCount hindex hterm, ?_⟩
    intro input values hattempt
    obtain ⟨buckets, hbuckets⟩ := exists_buckets hindex values
    rw [recover, hattempt]
    simp only [hbuckets]
    exact ⟨_, rfl⟩
  · obtain ⟨largest, -, heq⟩ := exists_bucketsNeeded (t := t) (by omega)
    have hword := largest.anchor.index.toNat_lt
    refine ⟨UInt64.toNat_inj.mp ?_, fun input values hattempt => ?_⟩
    · show t.bucketCount.toNat = 0
      omega
    · obtain ⟨texts, -, -, hvalues⟩ := attempt_eq_filled_iff.mp hattempt
      rw [recover, hattempt]
      simp only [buckets?_eq_none hover (length_of_values? hvalues)]

/-- every index is let pass -/
def unlimited : Config :=
  Config.standard.withLimits { Limits.standard with maxIndex := 18446744073709551615 }

def extremeText : Text := "\x7b18446744073709551615\x7d".toList

def extreme : Template where
  text := extremeText
  terms := [⟨⟨0⟩, extremeText, 18446744073709551615, 0, none⟩]
  layout := ⟨[], [(⟨0⟩, [])]⟩
  config := unlimited

theorem compile_extreme : compile unlimited extremeText = .ok extreme := by cbv

theorem bucketCount_of_compile_extreme :
    unlimited.fault? = none ∧ compile unlimited extremeText = .ok extreme ∧
    2 ^ 64 - 1 < extreme.bucketsNeeded ∧ extreme.bucketCount = 0 ∧
    extreme.isMatch ['x'] = true ∧ extreme.recover ['x'] = .error .tooManyBuckets := by
  have hover : 2 ^ 64 - 1 < extreme.bucketsNeeded := by decide
  have hattempt : extreme.attempt ['x'] = .filled [['x']] := by cbv
  obtain ⟨hzero, hfails⟩ := (bucketCount_of_compile compile_extreme).2.2 hover
  exact ⟨by decide, compile_extreme, hover, hzero, by cbv, hfails _ _ hattempt⟩

end FormatInverse.Template
