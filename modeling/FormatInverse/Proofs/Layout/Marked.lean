import FormatInverse.Proofs.Layout.Delimited

/-!
# Splits that are marked by their delimiters

A delimiter marks its place in a split if its first character does not occur in the text next to it
on the side from which delimiters are looked for: the text behind it, where the longest texts come
first, and the text in front of it, where the shortest do.  Other texts may hold the delimiters as
they like, a delimiter may overlap itself and what follows it.  A split all of whose delimiters mark
their places is the first one (`Splits.first_of_marked`).
-/

namespace FormatInverse

/-- the slot whose text the `i`-th delimiter is looked for through -/
def Capture.facing (m : Capture) (i : Nat) : Nat :=
  match m with
  | .greedy => i + 1
  | .lazy => i

namespace Layout

open Text (bytes)

/-- Every delimiter has a first character, and the text it faces does not have that character. -/
def Marked (m : Capture) (delimiters captured : List Text) : Prop :=
  ∀ i, (h : i < delimiters.length) →
    ∃ c ∈ delimiters[i].head?, ∀ s ∈ captured[m.facing i]?, c ∉ s

instance (m : Capture) (delimiters captured : List Text) :
    Decidable (Marked m delimiters captured) :=
  -- the only candidate is the first character, so there is no search over all characters
  haveI (i : Nat) (h : i < delimiters.length) :
      Decidable (∃ c ∈ delimiters[i].head?, ∀ s ∈ captured[m.facing i]?, c ∉ s) :=
    Option.decidableExistsMem _
  Nat.decidableBallLT _ _

namespace Marked

variable {m : Capture} {ds captured rest : List Text} {a b d : Text}

theorem tail (h : Marked m (d :: ds) (a :: captured)) : Marked m ds captured := by
  intro i hi
  obtain ⟨c, hc, hs⟩ := h (i + 1) (Nat.succ_lt_succ hi)
  refine ⟨c, hc, fun s hget => hs s ?_⟩
  cases m <;> exact hget

/-- From the right no delimiter faces the first text. -/
theorem replace (b' : Text) (h : Marked .greedy ds (b :: rest)) :
    Marked .greedy ds (b' :: rest) :=
  fun i hi => h i hi

end Marked

/-! ## two occurrences of one delimiter -/

section
variable {x : Char} {a a' b d e : Text}

theorem mem_of_append_eq {y u v : Text} (hx : d.head? = some x) (hy : y ≠ [])
    (h : y ++ u = d ++ v) : x ∈ y := by
  obtain ⟨c, y, rfl⟩ := List.exists_cons_of_ne_nil hy
  obtain ⟨r, rfl⟩ := List.head?_eq_some_iff.mp hx
  rw [(List.cons.inj h).1]
  exact List.mem_cons_self

/-- No occurrence is later than one behind which its first character is missing. -/
theorem isPrefix_of_not_mem_behind (hx : d.head? = some x) (hb : x ∉ b)
    (h : a' ++ d ++ e = a ++ d ++ b) : a' <+: a := by
  have hp : a <+: a ++ d ++ b := Text.isPrefix_of_eq_append rfl
  have hp' : a' <+: a ++ d ++ b := Text.isPrefix_of_eq_append h.symm
  rcases List.prefix_or_prefix_of_prefix hp' hp with hle | ⟨y, rfl⟩
  · exact hle
  · have hcut : y ++ (d ++ e) = d ++ b := by
      simpa only [List.append_assoc, List.append_cancel_left_eq] using h
    by_cases hy : y = []
    · exact ⟨[], by rw [hy, List.append_nil, List.append_nil]⟩
    · -- the text behind the earlier occurrence would have the character more often than `d` has it
      have hmem := List.count_pos_iff.mpr (mem_of_append_eq hx hy hcut)
      have hcount := congrArg (List.count x) hcut
      rw [List.count_append, List.count_append, List.count_append,
        List.count_eq_zero.mpr hb] at hcount
      omega

/-- No occurrence is earlier than one before which its first character is missing. -/
theorem isPrefix_of_not_mem_front (hx : d.head? = some x) (ha : x ∉ a)
    (h : a' ++ d ++ e = a ++ d ++ b) : a <+: a' := by
  have hp : a <+: a ++ d ++ b := Text.isPrefix_of_eq_append rfl
  have hp' : a' <+: a ++ d ++ b := Text.isPrefix_of_eq_append h.symm
  rcases List.prefix_or_prefix_of_prefix hp hp' with hle | ⟨y, rfl⟩
  · exact hle
  · have hcut : y ++ (d ++ b) = d ++ e := by
      simpa only [List.append_assoc, List.append_cancel_left_eq] using h.symm
    by_cases hy : y = []
    · exact ⟨[], by rw [hy, List.append_nil, List.append_nil]⟩
    · exact absurd (List.mem_append_right a' (mem_of_append_eq hx hy hcut)) ha

end

/-! ## a marked split is the first -/

theorem Marked.placements_before {ds captured other : List Text} {t last : Text} (lo : Nat)
    (hm : Marked .greedy ds captured) (h : Filled (ds ++ [last]) captured (t ++ last))
    (ho : Filled (ds ++ [last]) other (t ++ last)) :
    List.Forall₂ Capture.greedy.Before (placements lo captured ds) (placements lo other ds) := by
  induction ds generalizing captured other with
  | nil =>
    rw [placements_nil, placements_nil]
    exact List.Forall₂.nil
  | cons d ds ih =>
    obtain ⟨a, rest, u, rfl, -, hrest⟩ := h.exists_cons
    obtain ⟨b, rest, rfl⟩ := hrest.exists_head
    obtain ⟨a', rest', u', rfl, -, hrest'⟩ := ho.exists_cons
    obtain ⟨b', rest', rfl⟩ := hrest'.exists_head
    -- the delimiters behind the first one bound what both splits have in front of them
    have hbefore := ih (hm.tail.replace _) h.merge ho.merge
    have hle := headD_le_headD (lo + bytes t) hbefore
    rw [headD_placements lo h.merge, headD_placements lo ho.merge] at hle
    obtain ⟨e, he⟩ : a' ++ d ++ b' <+: a ++ d ++ b := Text.prefix_of_bytes_le
      ho.merge.head_isPrefix h.merge.head_isPrefix (Nat.le_of_add_le_add_left hle)
    rw [List.append_assoc (a' ++ d)] at he
    obtain ⟨x, hx, hb⟩ := hm 0 (Nat.zero_lt_succ _)
    have ha := isPrefix_of_not_mem_behind hx (hb b rfl) he
    rw [placements_merge, placements_merge]
    exact List.Forall₂.cons (Nat.add_le_add_left (Text.bytes_le_of_isPrefix ha) lo) hbefore

theorem Marked.firstFilled {ds captured : List Text} {t last : Text}
    (hm : Marked .lazy ds captured) (h : Filled (ds ++ [last]) captured t) :
    FirstFilled .lazy (ds ++ [last]) captured t := by
  induction ds generalizing captured t with
  | nil =>
    obtain ⟨u, rfl⟩ := h.exists_append
    refine ⟨h, fun other ho => ?_⟩
    rw [Filled.singleton_iff.mp h, Filled.singleton_iff.mp ho]
    exact Capture.Before.refl _
  | cons d ds ih =>
    obtain ⟨a, rest, u, rfl, rfl, hrest⟩ := h.exists_cons
    refine (ih hm.tail hrest).cons fun a' u' hu _ => ?_
    obtain ⟨x, hx, ha⟩ := hm 0 (Nat.zero_lt_succ _)
    exact (isPrefix_of_not_mem_front hx (ha a rfl) hu.symm).length_le

variable {l : Layout} {m : Capture} {input : Text} {captured : List Text}

theorem Splits.first_of_marked (h : l.Splits input captured)
    (hm : Marked m l.delimiters captured) : l.First m input captured := by
  by_cases htail : l.tail = []
  · refine ⟨h, fun other ho => ?_⟩
    rw [((splits_iff_of_tail_eq_nil htail).mp h).1, ((splits_iff_of_tail_eq_nil htail).mp ho).1]
    exact Capture.Before.refl _
  · obtain ⟨t, rfl, hf⟩ := (splits_iff_of_tail_ne_nil htail).mp h
    cases m with
    | greedy =>
      refine ⟨h, fun other ho => h.before_lengths ho ?_⟩
      obtain ⟨t', ht, hf'⟩ := (splits_iff_of_tail_ne_nil htail).mp ho
      rw [← List.append_cancel_left ht] at hf'
      exact hm.placements_before _ hf hf'
    | lazy =>
      rw [first_iff_firstFilled, literals_eq_append htail]
      exact ⟨_, rfl, hm.firstFilled hf⟩

end Layout

end FormatInverse
