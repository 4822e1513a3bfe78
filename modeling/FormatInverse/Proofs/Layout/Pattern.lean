import FormatInverse.Layout.Pattern
import FormatInverse.Proofs.Layout.Split

/-!
# Matching by pattern is the search with backtracking

`firstMatch?` is the search that defines the match of a pattern: the slots from the left, each tries
its lengths in the order of the capture mode, one character at a time, and the first length is kept
with which the rest of the pattern matches.  The tables of `patternTexts?` answer the question for
the rest beforehand.

* `firstMatch?_eq_some_iff`    the search finds the split whose lengths come first;
* `patternTexts?_eq_some_iff`  so does the walk along the tables;
* `patternTexts?_eq_backtrack?`  hence both are the same function.
-/

namespace FormatInverse.Layout

variable {m : Capture}

/-! ## the search -/

/-- the lengths of a slot in front of `t` in the order of trying -/
def tried (m : Capture) (t : Text) : List Nat :=
  match m with
  | .greedy => (List.range (t.length + 1)).reverse
  | .lazy => List.range (t.length + 1)

/-- Slots and literals against the whole of a text. -/
def firstMatch? (m : Capture) : List Text → Text → Option (List Text)
  | [], t => if t.isEmpty then some [] else none
  | literal :: literals, t =>
    (tried m t).findSome? fun k =>
      if literal.isPrefixOf (t.drop k) then
        (firstMatch? m literals (t.drop (k + literal.length))).map (t.take k :: ·)
      else none

/-- The texts of the slots in the first match of the pattern. -/
def backtrack? (l : Layout) (m : Capture) (input : Text) : Option (List Text) :=
  if l.head.isPrefixOf input then
    firstMatch? m (l.tail.map (·.2)) (input.drop l.head.length)
  else none

/-- The texts when the first slot takes `k` characters. -/
def matchWith? (m : Capture) (literal : Text) (literals : List Text) (t : Text) (k : Nat) :
    Option (List Text) :=
  if literal.isPrefixOf (t.drop k) then
    (firstMatch? m literals (t.drop (k + literal.length))).map (t.take k :: ·)
  else none

theorem firstMatch?_cons (m : Capture) (literal : Text) (literals : List Text) (t : Text) :
    firstMatch? m (literal :: literals) t
      = (tried m t).findSome? (matchWith? m literal literals t) := rfl

theorem mem_tried {t : Text} {k : Nat} : k ∈ tried m t ↔ k ≤ t.length := by
  cases m
  · rw [tried, List.mem_reverse, List.mem_range, Nat.lt_succ_iff]
  · rw [tried, List.mem_range, Nat.lt_succ_iff]

theorem pairwise_tried (m : Capture) (t : Text) : (tried m t).Pairwise m.Before := by
  cases m
  · rw [tried, List.pairwise_reverse]
    exact List.pairwise_lt_range.imp Nat.le_of_lt
  · exact List.pairwise_lt_range.imp Nat.le_of_lt

/-- What is found first comes before everything else that could be found. -/
theorem exists_before_of_findSome? {β : Type} {ks : List Nat} {f : Nat → Option β} {b : β}
    (hks : ks.Pairwise m.Before) (h : ks.findSome? f = some b) :
    ∃ k ∈ ks, f k = some b ∧ ∀ j ∈ ks, (f j).isSome → m.Before k j := by
  obtain ⟨before, k, after, rfl, hk, hnone⟩ := List.findSome?_eq_some_iff.mp h
  refine ⟨k, List.mem_append_right _ List.mem_cons_self, hk, fun j hj hsome => ?_⟩
  rcases List.mem_append.mp hj with hj | hj
  · rw [hnone j hj] at hsome
    cases hsome
  · rcases List.mem_cons.mp hj with rfl | hj
    · exact Capture.Before.refl _
    · exact List.rel_of_pairwise_cons (List.pairwise_append.mp hks).2.1 hj

/-! ## a cut of a text into a slot, a literal and the rest -/

section
variable {t literal c u : Text} {k : Nat}

theorem eq_cut_of_isPrefix (h : literal <+: t.drop k) :
    t = t.take k ++ literal ++ t.drop (k + literal.length) := by
  obtain ⟨r, hr⟩ := h
  have hdrop : t.drop (k + literal.length) = r := by
    rw [← List.drop_drop, ← hr, List.drop_left]
  rw [hdrop, List.append_assoc, hr, List.take_append_drop]

theorem prefix_drop_of_eq_cut (h : t = c ++ literal ++ u) : literal <+: t.drop c.length := by
  rw [h, List.append_assoc, List.drop_left]
  exact List.prefix_append literal u

theorem drop_of_eq_cut (h : t = c ++ literal ++ u) :
    t.drop (c.length + literal.length) = u := by
  rw [h, ← List.length_append, List.drop_left]

theorem length_of_eq_cut (h : t = c ++ literal ++ u) :
    t.length = c.length + literal.length + u.length := by
  rw [h, List.length_append, List.length_append]

end

/-- A first text of `k` characters that comes before all others from which one can go on. -/
theorem firstFilled_cons_take {literal t : Text} {literals rest : List Text} {k : Nat}
    (h : FirstFilled m literals rest (t.drop (k + literal.length)))
    (hfront : literal <+: t.drop k) (hk : k ≤ t.length)
    (hbefore : ∀ c u other, t = c ++ literal ++ u → Filled literals other u →
      m.Before k c.length) :
    FirstFilled m (literal :: literals) (t.take k :: rest) t := by
  have hcut := eq_cut_of_isPrefix hfront
  have hlen : (t.take k).length = k := by rw [List.length_take, Nat.min_eq_left hk]
  have hcons : FirstFilled m (literal :: literals) (t.take k :: rest)
      (t.take k ++ literal ++ t.drop (k + literal.length)) := by
    refine h.cons fun c u hu ⟨other, ho⟩ => ?_
    rw [hlen]
    exact hbefore c u other (hcut.trans hu) ho
  rw [← hcut] at hcons
  exact hcons

/-! ## what the search finds -/

theorem matchWith?_eq_some_iff {literal t : Text} {literals captured : List Text} {k : Nat} :
    matchWith? m literal literals t k = some captured ↔
      literal <+: t.drop k ∧
        ∃ rest, firstMatch? m literals (t.drop (k + literal.length)) = some rest ∧
          t.take k :: rest = captured := by
  rw [matchWith?, Option.ite_none_right_eq_some, List.isPrefixOf_iff_prefix,
    Option.map_eq_some_iff]

theorem exists_filled_of_firstMatch? {literals captured : List Text} {t : Text}
    (h : firstMatch? m literals t = some captured) : ∃ captured, Filled literals captured t := by
  induction literals generalizing t captured with
  | nil =>
    rw [firstMatch?, Option.ite_none_right_eq_some, List.isEmpty_iff] at h
    rw [h.1]
    exact ⟨[], Filled.nil⟩
  | cons literal literals ih =>
    rw [firstMatch?_cons] at h
    obtain ⟨k, -, hk⟩ := List.exists_of_findSome?_eq_some h
    obtain ⟨hfront, rest, hrest, -⟩ := matchWith?_eq_some_iff.mp hk
    obtain ⟨captured', hf⟩ := ih hrest
    rw [eq_cut_of_isPrefix hfront]
    exact ⟨_, Filled.cons literal (t.take k) hf⟩

theorem firstMatch?_of_filled {literals captured' : List Text} {t : Text}
    (h : Filled literals captured' t) :
    ∃ captured, firstMatch? m literals t = some captured ∧ FirstFilled m literals captured t := by
  induction literals generalizing t captured' with
  | nil =>
    cases h
    exact ⟨[], rfl, FirstFilled.nil⟩
  | cons literal literals ih =>
    -- every text from which one can go on is among those that are tried
    have hsome : ∀ c u other, t = c ++ literal ++ u → Filled literals other u →
        c.length ∈ tried m t ∧ (matchWith? m literal literals t c.length).isSome := by
      intro c u other ht ho
      obtain ⟨rest, hrest, -⟩ := ih ho
      constructor
      · rw [mem_tried, length_of_eq_cut ht]
        omega
      · rw [Option.isSome_iff_exists]
        refine ⟨_, matchWith?_eq_some_iff.mpr ⟨prefix_drop_of_eq_cut ht, rest, ?_, rfl⟩⟩
        rw [drop_of_eq_cut ht, hrest]
    obtain ⟨c', rest', u', -, ht, hrest'⟩ := h.exists_cons
    obtain ⟨captured, hfound⟩ := Option.isSome_iff_exists.mp
      (List.findSome?_isSome_iff.mpr ⟨c'.length, hsome c' u' rest' ht hrest'⟩)
    refine ⟨captured, hfound, ?_⟩
    obtain ⟨k, hkmem, hk, hbefore⟩ := exists_before_of_findSome? (pairwise_tried m t) hfound
    obtain ⟨hfront, rest, hrest, rfl⟩ := matchWith?_eq_some_iff.mp hk
    obtain ⟨other, ho⟩ := exists_filled_of_firstMatch? hrest
    obtain ⟨rest₁, hrest₁, hfirst⟩ := ih ho
    obtain rfl := Option.some.inj (hrest.symm.trans hrest₁)
    refine firstFilled_cons_take hfirst hfront (mem_tried.mp hkmem) fun c u o ht' ho' => ?_
    obtain ⟨hmem, hsome'⟩ := hsome c u o ht' ho'
    exact hbefore _ hmem hsome'

theorem firstMatch?_eq_some_iff {literals captured : List Text} {t : Text} :
    firstMatch? m literals t = some captured ↔ FirstFilled m literals captured t := by
  constructor
  · intro h
    obtain ⟨captured', hf⟩ := exists_filled_of_firstMatch? h
    obtain ⟨captured₁, h₁, hfirst⟩ := firstMatch?_of_filled (m := m) hf
    rw [Option.some.inj (h.symm.trans h₁)]
    exact hfirst
  · intro h
    obtain ⟨captured₁, h₁, hfirst⟩ := firstMatch?_of_filled (m := m) h.filled
    rw [h₁, hfirst.eq h]

/-! ## the tables -/

theorem getElem?_ends {t u : Text} {p : Nat} :
    (ends t)[p]? = some u ↔ p ≤ t.length ∧ t.drop p = u := by
  induction t generalizing p with
  | nil =>
    cases p with
    | zero => simp [ends]
    | succ p => simp [ends]
  | cons c t ih =>
    cases p with
    | zero => simp [ends]
    | succ p =>
      rw [ends, List.getElem?_cons_succ, ih, List.length_cons, List.drop_succ_cons,
        Nat.succ_le_succ_iff]

theorem headD_eq_true {bs : List Bool} : bs.headD false = true ↔ bs[0]? = some true := by
  cases bs with
  | nil => simp
  | cons b bs => simp

theorem getElem?_someFrom {bs : List Bool} {p : Nat} :
    (someFrom bs)[p]? = some true ↔ ∃ k, bs[p + k]? = some true := by
  induction bs generalizing p with
  | nil => simp [someFrom]
  | cons b bs ih =>
    cases p with
    | zero =>
      show some (b || (someFrom bs).headD false) = some true ↔ _
      rw [Option.some.injEq, Bool.or_eq_true, headD_eq_true, ih]
      constructor
      · rintro (rfl | ⟨k, hk⟩)
        · exact ⟨0, rfl⟩
        · refine ⟨k + 1, ?_⟩
          rw [Nat.zero_add] at hk ⊢
          exact hk
      · rintro ⟨k, hk⟩
        rw [Nat.zero_add] at hk
        cases k with
        | zero => exact Or.inl (Option.some.inj hk)
        | succ k =>
          refine Or.inr ⟨k, ?_⟩
          rw [Nat.zero_add]
          exact hk
    | succ p =>
      show (someFrom bs)[p]? = some true ↔ _
      rw [ih]
      constructor
      · rintro ⟨k, hk⟩
        refine ⟨k, ?_⟩
        rw [Nat.add_right_comm]
        exact hk
      · rintro ⟨k, hk⟩
        rw [Nat.add_right_comm] at hk
        exact ⟨k, hk⟩

theorem getElem?_closings {input literal : Text} {after : List Bool} {p : Nat} :
    (closings input literal after)[p]? = some true ↔
      p ≤ input.length ∧ literal <+: input.drop p ∧ after[literal.length + p]? = some true := by
  rw [closings, List.getElem?_zipWith_eq_some]
  constructor
  · rintro ⟨t, fits, ht, hfits, h⟩
    obtain ⟨hp, rfl⟩ := getElem?_ends.mp ht
    rw [Bool.and_eq_true, List.isPrefixOf_iff_prefix] at h
    rw [List.getElem?_drop] at hfits
    exact ⟨hp, h.1, by rw [hfits, h.2]⟩
  · rintro ⟨hp, hfront, hafter⟩
    refine ⟨input.drop p, true, getElem?_ends.mpr ⟨hp, rfl⟩, ?_, ?_⟩
    · rw [List.getElem?_drop, hafter]
    · rw [Bool.and_true, List.isPrefixOf_iff_prefix]
      exact hfront

/-- The whole of the table: the literals can be filled from a position on. -/
theorem getElem?_tables_snd {input : Text} {literals : List Text} {p : Nat} :
    (tables input literals).2[p]? = some true ↔
      p ≤ input.length ∧ ∃ captured, Filled literals captured (input.drop p) := by
  induction literals generalizing p with
  | nil =>
    show ((ends input).map List.isEmpty)[p]? = some true ↔ _
    rw [List.getElem?_map, Option.map_eq_some_iff]
    constructor
    · rintro ⟨t, ht, he⟩
      obtain ⟨hp, rfl⟩ := getElem?_ends.mp ht
      rw [List.isEmpty_iff.mp he]
      exact ⟨hp, [], Filled.nil⟩
    · rintro ⟨hp, captured, hf⟩
      refine ⟨_, getElem?_ends.mpr ⟨hp, rfl⟩, ?_⟩
      generalize input.drop p = t at hf
      cases hf
      rfl
  | cons literal literals ih =>
    show (someFrom (closings input literal (tables input literals).2))[p]? = some true ↔ _
    rw [getElem?_someFrom]
    constructor
    · rintro ⟨k, hk⟩
      obtain ⟨hpk, hfront, hafter⟩ := getElem?_closings.mp hk
      obtain ⟨-, captured, hf⟩ := ih.mp hafter
      rw [← List.drop_drop] at hfront
      have hcut := eq_cut_of_isPrefix hfront
      rw [List.drop_drop, ← Nat.add_assoc, Nat.add_comm (p + k)] at hcut
      have hfilled := Filled.cons literal ((input.drop p).take k) hf
      rw [← hcut] at hfilled
      exact ⟨by omega, _, hfilled⟩
    · rintro ⟨hp, captured, hf⟩
      obtain ⟨c, rest, u, -, ht, hrest⟩ := hf.exists_cons
      have hlen := length_of_eq_cut ht
      rw [List.length_drop] at hlen
      refine ⟨c.length, getElem?_closings.mpr ⟨by omega, ?_, ih.mpr ⟨by omega, rest, ?_⟩⟩⟩
      · rw [← List.drop_drop]
        exact prefix_drop_of_eq_cut ht
      · rw [Nat.add_comm, Nat.add_assoc, ← List.drop_drop, drop_of_eq_cut ht]
        exact hrest

/-- A slot's closings, from a position on: the lengths with which one can go on. -/
theorem getElem?_drop_closings {input literal : Text} {literals : List Text} {p k : Nat} :
    ((closings input literal (tables input literals).2).drop p)[k]? = some true ↔
      p + k ≤ input.length ∧ literal <+: (input.drop p).drop k ∧
        ∃ captured, Filled literals captured ((input.drop p).drop (k + literal.length)) := by
  rw [List.getElem?_drop, getElem?_closings, getElem?_tables_snd, List.drop_drop, List.drop_drop,
    ← Nat.add_assoc p k, Nat.add_comm literal.length (p + k)]
  constructor
  · rintro ⟨hp, hfront, -, hf⟩
    exact ⟨hp, hfront, hf⟩
  · rintro ⟨hp, hfront, hf⟩
    have hlen := hfront.length_le
    rw [List.length_drop] at hlen
    exact ⟨hp, hfront, by omega, hf⟩

/-! ## the walk along the tables -/

theorem idxOf?_of_getElem? {bs : List Bool} {j : Nat} (h : bs[j]? = some true) :
    ∃ k, bs.idxOf? true = some k ∧ bs[k]? = some true ∧ ∀ i, bs[i]? = some true → k ≤ i := by
  obtain ⟨k, hk⟩ := Option.isSome_iff_exists.mp
    (List.isSome_idxOf?.mpr (List.mem_of_getElem? h))
  obtain ⟨hlt, hget, hbefore⟩ := List.idxOf?_eq_some_iff.mp hk
  refine ⟨k, hk, by rw [List.getElem?_eq_getElem hlt, hget], fun i hi => ?_⟩
  by_contra hik
  obtain ⟨hilt, hi⟩ := List.getElem?_eq_some_iff.mp hi
  exact hbefore i (by omega) hi

/-- A slot takes the first of the lengths that its closings allow. -/
theorem slotLength?_of_getElem? {closing : List Bool} {j : Nat} (h : closing[j]? = some true) :
    ∃ k, slotLength? m closing = some k ∧ closing[k]? = some true ∧
      ∀ i, closing[i]? = some true → m.Before k i := by
  cases m with
  | lazy => exact idxOf?_of_getElem? h
  | greedy =>
    have hlt : ∀ i, closing[i]? = some true → i < closing.length := fun i hi =>
      (List.getElem?_eq_some_iff.mp hi).1
    have hreverse : ∀ i, closing[i]? = some true →
        closing.reverse[closing.length - 1 - i]? = some true := by
      intro i hi
      have := hlt i hi
      rw [List.getElem?_reverse (by omega), ← hi]
      congr 1
      omega
    obtain ⟨k, hk, hget, hfirst⟩ := idxOf?_of_getElem? (hreverse j h)
    refine ⟨closing.length - 1 - k, ?_, ?_, fun i hi => ?_⟩
    · rw [slotLength?, hk]
      rfl
    · have hklt := (List.getElem?_eq_some_iff.mp hget).1
      rw [List.length_reverse] at hklt
      rw [List.getElem?_reverse hklt] at hget
      exact hget
    · have hle := hfirst _ (hreverse i hi)
      have := hlt i hi
      show i ≤ closing.length - 1 - k
      omega

theorem getElem?_drop_closings_of_cut {input literal c u : Text} {literals other : List Text}
    {p : Nat} (hp : p ≤ input.length) (ht : input.drop p = c ++ literal ++ u)
    (ho : Filled literals other u) :
    ((closings input literal (tables input literals).2).drop p)[c.length]? = some true := by
  have hlen := length_of_eq_cut ht
  rw [List.length_drop] at hlen
  refine getElem?_drop_closings.mpr ⟨by omega, prefix_drop_of_eq_cut ht, other, ?_⟩
  rw [drop_of_eq_cut ht]
  exact ho

theorem textsFrom?_cons {input literal : Text} {literals rest : List Text} {p k : Nat}
    (hk : slotLength? m ((closings input literal (tables input literals).2).drop p) = some k)
    (hrest : textsFrom? m input (p + k + literal.length) (tables input literals).1 literals
      = some rest) :
    textsFrom? m input p (tables input (literal :: literals)).1 (literal :: literals)
      = some ((input.drop p).take k :: rest) := by
  show (do
    let length ← slotLength? m ((closings input literal (tables input literals).2).drop p)
    let texts ← textsFrom? m input (p + length + literal.length) (tables input literals).1 literals
    return (input.drop p).take length :: texts) = _
  rw [hk]
  show (do
    let texts ← textsFrom? m input (p + k + literal.length) (tables input literals).1 literals
    return (input.drop p).take k :: texts) = _
  rw [hrest]
  rfl

theorem textsFrom?_of_filled {input : Text} {literals captured' : List Text} {p : Nat}
    (hp : p ≤ input.length) (h : Filled literals captured' (input.drop p)) :
    ∃ captured, textsFrom? m input p (tables input literals).1 literals = some captured ∧
      FirstFilled m literals captured (input.drop p) := by
  induction literals generalizing p captured' with
  | nil =>
    refine ⟨[], rfl, ?_⟩
    generalize input.drop p = t at h
    cases h
    exact FirstFilled.nil
  | cons literal literals ih =>
    obtain ⟨c', rest', u', -, ht, hrest'⟩ := h.exists_cons
    obtain ⟨k, hk, hget, hbefore⟩ :=
      slotLength?_of_getElem? (m := m) (getElem?_drop_closings_of_cut hp ht hrest')
    obtain ⟨hpk, hfront, other, ho⟩ := getElem?_drop_closings.mp hget
    have hlen := length_of_eq_cut (eq_cut_of_isPrefix hfront)
    rw [List.length_take, List.length_drop, List.length_drop] at hlen
    have hdrop : (input.drop p).drop (k + literal.length)
        = input.drop (p + k + literal.length) := by
      rw [List.drop_drop, ← Nat.add_assoc]
    rw [hdrop] at ho
    obtain ⟨rest, hrest, hfirst⟩ := ih (by omega) ho
    rw [← hdrop] at hfirst
    refine ⟨_, textsFrom?_cons hk hrest, firstFilled_cons_take hfirst hfront ?_ ?_⟩
    · rw [List.length_drop]
      omega
    · exact fun c u other ht ho => hbefore _ (getElem?_drop_closings_of_cut hp ht ho)

/-! ## the match of the whole pattern -/

variable {l : Layout} {input : Text} {captured : List Text}

theorem first_iff_of_head_isPrefix (h : l.head <+: input) :
    l.First m input captured ↔
      FirstFilled m (l.tail.map (·.2)) captured (input.drop l.head.length) := by
  obtain ⟨t, rfl⟩ := h
  rw [List.drop_left, first_iff_firstFilled]
  constructor
  · rintro ⟨t', ht, hf⟩
    rw [List.append_cancel_left ht]
    exact hf
  · intro hf
    exact ⟨t, rfl, hf⟩

theorem Splits.head_isPrefix (h : l.Splits input captured) : l.head <+: input := by
  obtain ⟨t, rfl, -⟩ := splits_iff_filled.mp h
  exact List.prefix_append _ _

theorem backtrack?_eq_some_iff :
    l.backtrack? m input = some captured ↔ l.First m input captured := by
  rw [backtrack?, Option.ite_none_right_eq_some, List.isPrefixOf_iff_prefix,
    firstMatch?_eq_some_iff]
  constructor
  · rintro ⟨h, hf⟩
    exact (first_iff_of_head_isPrefix h).mpr hf
  · intro hfirst
    have h := hfirst.1.head_isPrefix
    exact ⟨h, (first_iff_of_head_isPrefix h).mp hfirst⟩

theorem patternTexts?_eq_some_iff :
    l.patternTexts? m input = some captured ↔ l.First m input captured := by
  show (if l.head.isPrefixOf input then
    if (tables (input.drop l.head.length) (l.tail.map (·.2))).2.headD false then
      textsFrom? m (input.drop l.head.length) 0
        (tables (input.drop l.head.length) (l.tail.map (·.2))).1 (l.tail.map (·.2))
    else none
  else none) = some captured ↔ _
  rw [Option.ite_none_right_eq_some, Option.ite_none_right_eq_some, List.isPrefixOf_iff_prefix,
    headD_eq_true, getElem?_tables_snd]
  constructor
  · rintro ⟨h, ⟨hp, captured', hf⟩, htexts⟩
    obtain ⟨captured₁, h₁, hfirst⟩ := textsFrom?_of_filled (m := m) hp hf
    rw [Option.some.inj (htexts.symm.trans h₁)]
    exact (first_iff_of_head_isPrefix h).mpr hfirst
  · intro hfirst
    have h := hfirst.1.head_isPrefix
    have hff := (first_iff_of_head_isPrefix h).mp hfirst
    obtain ⟨captured₁, h₁, hfirst₁⟩ :=
      textsFrom?_of_filled (m := m) (p := 0) (Nat.zero_le _) hff.filled
    refine ⟨h, ⟨Nat.zero_le _, captured, hff.filled⟩, ?_⟩
    rw [h₁, hfirst₁.eq hff]

/-- The tables give what the search gives. -/
theorem patternTexts?_eq_backtrack? (l : Layout) (m : Capture) (input : Text) :
    l.patternTexts? m input = l.backtrack? m input := by
  apply Option.ext
  intro captured
  rw [patternTexts?_eq_some_iff, backtrack?_eq_some_iff]

theorem patternMatches_iff :
    l.patternMatches input = true ↔ ∃ captured, l.Splits input captured := by
  rw [patternMatches, Bool.and_eq_true, List.isPrefixOf_iff_prefix, headD_eq_true,
    getElem?_tables_snd]
  constructor
  · rintro ⟨⟨t, rfl⟩, -, captured, hf⟩
    rw [List.drop_left] at hf
    exact ⟨captured, splits_iff_filled.mpr ⟨t, rfl, hf⟩⟩
  · rintro ⟨captured, hs⟩
    obtain ⟨t, rfl, hf⟩ := splits_iff_filled.mp hs
    refine ⟨List.prefix_append _ _, Nat.zero_le _, captured, ?_⟩
    rw [List.drop_left]
    exact hf

end FormatInverse.Layout
