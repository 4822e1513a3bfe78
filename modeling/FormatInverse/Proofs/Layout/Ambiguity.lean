import FormatInverse.Proofs.Layout.Marked
import FormatInverse.Proofs.Layout.Matcher
import Mathlib.Logic.ExistsUnique

/-!
# Inputs with several splits

The two capture modes answer with two splits of the input, the outermost ones: every slot of any
other split begins and ends between where it does in these two.  So an input on which the modes
agree has one split only (`greedy_lazy_bounds`).

Where two slots have no text between them, every way of sharing a text among them gives a split, and
the two outermost ones do not share: the first slot of a run takes everything if the longest texts
come first, the last one if the shortest do (`captured_of_run`).
-/

namespace FormatInverse

/-- `r` begins and ends no later than `s` -/
structure ByteRange.NoLater (r s : ByteRange) : Prop where
  start_le : r.start ≤ s.start
  stop_le : r.stop ≤ s.stop

namespace Layout

open Text (bytes)

variable {l : Layout} {m : Capture} {input : Text} {captured captured' : List Text}
  {ranges : List ByteRange}

/-! ## slots between delimiters -/

/-- The later the delimiters stand, the later the gaps between them. -/
theorem forall₂_gaps {lo lo' hi : Nat} {starts starts' : List Nat} (ds : List Text)
    (hlo : lo ≤ lo') (h : List.Forall₂ (· ≤ ·) starts starts') :
    List.Forall₂ ByteRange.NoLater (gaps lo hi ds starts) (gaps lo' hi ds starts') := by
  induction ds generalizing lo lo' starts starts' with
  | nil => exact List.Forall₂.cons ⟨hlo, Nat.le_refl hi⟩ List.Forall₂.nil
  | cons d ds ih =>
    cases h with
    | nil => exact List.Forall₂.cons ⟨hlo, Nat.le_refl hi⟩ List.Forall₂.nil
    | cons hstart hrest =>
      exact List.Forall₂.cons ⟨hlo, hstart⟩ (ih (Nat.add_le_add_right hstart _) hrest)

theorem ranges_eq_gaps (htail : l.tail ≠ []) {t : Text}
    (h : Filled (l.delimiters ++ [l.last]) captured (t ++ l.last)) :
    l.ranges captured
      = gaps (bytes l.head) (bytes l.head + bytes t) l.delimiters (l.placed captured) := by
  rw [ranges, literals_eq_append htail, placed, gaps_placements _ h]

theorem Splits.forall₂_ranges (h : l.Splits input captured) (h' : l.Splits input captured')
    (hplaced : List.Forall₂ (· ≤ ·) (l.placed captured) (l.placed captured')) :
    List.Forall₂ ByteRange.NoLater (l.ranges captured) (l.ranges captured') := by
  by_cases htail : l.tail = []
  · rw [((splits_iff_of_tail_eq_nil htail).mp h).1, ((splits_iff_of_tail_eq_nil htail).mp h').1]
    exact List.Forall₂.nil
  · obtain ⟨t, rfl, hf⟩ := (splits_iff_of_tail_ne_nil htail).mp h
    obtain ⟨t', ht, hf'⟩ := (splits_iff_of_tail_ne_nil htail).mp h'
    rw [← List.append_cancel_right (List.append_cancel_left ht)] at hf'
    rw [ranges_eq_gaps htail hf, ranges_eq_gaps htail hf']
    exact forall₂_gaps l.delimiters (Nat.le_refl _) hplaced

/-! ## the outermost splits -/

/-- The ranges of a split settle its texts. -/
theorem Splits.eq_of_ranges_eq (h : l.Splits input captured) (h' : l.Splits input captured')
    (hranges : l.ranges captured = l.ranges captured') : captured = captured' := by
  rw [← h.slices_ranges, ← h'.slices_ranges, hranges]

/-- The longest and the shortest texts are found in the same inputs.  No slot of any split begins or
ends before that slot of the split with the shortest texts, or after that of the split with the
longest; and the two are the same exactly if there is no other. -/
theorem greedy_lazy_bounds (l : Layout) (input : Text) :
    ((l.delimitedRanges? .greedy input).isSome ↔ (l.delimitedRanges? .lazy input).isSome) ∧
    ∀ latest earliest, l.delimitedRanges? .greedy input = some latest →
      l.delimitedRanges? .lazy input = some earliest →
      (∀ captured, l.Splits input captured →
        List.Forall₂ ByteRange.NoLater earliest (l.ranges captured) ∧
        List.Forall₂ ByteRange.NoLater (l.ranges captured) latest) ∧
      (latest = earliest ↔ ∃! captured, l.Splits input captured) := by
  refine ⟨by rw [isSome_delimitedRanges?_iff, isSome_delimitedRanges?_iff], ?_⟩
  intro latest earliest hlatest hearliest
  obtain ⟨longest, hlongest, rfl, hafter⟩ := splits_of_delimitedRanges? hlatest
  obtain ⟨shortest, hshortest, rfl, hbefore⟩ := splits_of_delimitedRanges? hearliest
  refine ⟨fun captured hs => ⟨?_, ?_⟩, fun heq => ?_, fun hunique => ?_⟩
  · exact hshortest.forall₂_ranges hs (hbefore captured hs)
  · exact hs.forall₂_ranges hlongest (hafter captured hs).flip
  · obtain rfl := hlongest.eq_of_ranges_eq hshortest heq
    refine ⟨longest, hlongest, fun other ho => ?_⟩
    -- the lengths of another split are bounded by the same lengths from both sides
    have hle := hlongest.before_lengths ho (hafter other ho)
    have hge := hlongest.before_lengths ho (hbefore other ho)
    exact ho.eq_of_bytes_eq hlongest (le_antisymm hle hge)
  · rw [hunique.unique hlongest hshortest]

/-- a slot, the text `aa`, which can overlap itself, and one more slot -/
def overlapping : Layout := ⟨[], [(⟨0⟩, "aa".toList), (⟨1⟩, [])]⟩

theorem greedy_lazy_bounds_overlapping :
    overlapping.delimitedRanges? .greedy "xaaay".toList = some [⟨0, 2⟩, ⟨4, 5⟩] ∧
    overlapping.delimitedRanges? .lazy "xaaay".toList = some [⟨0, 1⟩, ⟨3, 5⟩] ∧
    ¬ ∃! captured, overlapping.Splits "xaaay".toList captured := by
  have hlatest : overlapping.delimitedRanges? .greedy "xaaay".toList
      = some [⟨0, 2⟩, ⟨4, 5⟩] := by decide
  have hearliest : overlapping.delimitedRanges? .lazy "xaaay".toList
      = some [⟨0, 1⟩, ⟨3, 5⟩] := by decide
  have hbounds := (greedy_lazy_bounds overlapping "xaaay".toList).2 _ _ hlatest hearliest
  exact ⟨hlatest, hearliest, fun hunique => absurd (hbounds.2.mpr hunique) (by decide)⟩

end Layout

/-! ## neighbouring slots without text between them -/

/-- the slot of a run from `first` to `last` that all text goes to -/
def Capture.receiver (m : Capture) (first last : Nat) : Nat :=
  match m with
  | .greedy => first
  | .lazy => last

namespace FirstFilled

variable {m : Capture} {literals captured : List Text} {a b t : Text}

/-- Of two texts with nothing between them, the second is empty if the longest come first, since the
first could have it too. -/
theorem second_eq_nil (h : FirstFilled .greedy ([] :: literals) (a :: b :: captured) t) : b = [] := by
  have hmerge : Filled literals ((a ++ [] ++ b) :: captured) t := h.filled.merge
  have hall : Filled literals ((a ++ b ++ [] ++ []) :: captured) t := by simpa using hmerge
  have hlengths := h.before _ hall.unmerge
  have hle : Text.bytes (a ++ b) ≤ Text.bytes a := hlengths.head
  rw [Text.bytes_append] at hle
  exact Text.bytes_eq_zero.mp (by omega)

theorem first_eq_nil (h : FirstFilled .lazy ([] :: literals) (a :: b :: captured) t) : a = [] := by
  have hmerge : Filled literals ((a ++ [] ++ b) :: captured) t := h.filled.merge
  have hall : Filled literals (([] ++ [] ++ (a ++ b)) :: captured) t := by simpa using hmerge
  have hlengths := h.before _ hall.unmerge
  have hle : Text.bytes a ≤ Text.bytes [] := hlengths.head
  rw [Text.bytes_nil] at hle
  exact Text.bytes_eq_zero.mp (by omega)

/-- No text goes to the slot that would have to be looked through for an empty delimiter. -/
theorem facing_eq_nil {i : Nat} (h : FirstFilled m literals captured t)
    (hempty : literals[i]? = some []) (hi : i + 1 < literals.length) :
    captured[m.facing i]? = some [] := by
  induction i generalizing literals captured t with
  | zero =>
    obtain ⟨literals, rfl⟩ : ∃ rest, literals = [] :: rest := by
      cases literals with
      | nil => cases hempty
      | cons d ds =>
        obtain rfl : d = [] := Option.some.inj hempty
        exact ⟨ds, rfl⟩
    have hlen := h.filled.length_eq
    match captured, hlen with
    | a :: b :: rest, _ =>
      cases m with
      | greedy => exact congrArg some h.second_eq_nil
      | lazy => exact congrArg some h.first_eq_nil
    | [_], hlen =>
      rw [List.length_singleton] at hlen
      omega
  | succ i ih =>
    cases literals with
    | nil => cases hempty
    | cons d ds =>
      obtain ⟨c, rest, -, rfl, -, -⟩ := h.filled.exists_cons
      obtain ⟨u, hrest⟩ := h.tail
      have hnext := ih hrest hempty (Nat.lt_of_succ_lt_succ hi)
      cases m <;> exact hnext

end FirstFilled

namespace Layout

variable {l : Layout} {m : Capture} {input : Text} {captured : List Text}
  {ranges : List ByteRange} {first last : Nat}

/-- no literal text stands between slot `i` and the next -/
def Adjacent (l : Layout) (i : Nat) : Prop := l.delimiters[i]? = some []

instance (l : Layout) (i : Nat) : Decidable (l.Adjacent i) := inferInstanceAs (Decidable (_ = _))

/-- the slots from `first` to `last`, without literal text between any two of them -/
structure Run (l : Layout) (first last : Nat) : Prop where
  first_le : first ≤ last
  last_lt : last < l.slotCount
  adjacent : ∀ i, first ≤ i → i < last → l.Adjacent i

theorem First.facing_eq_nil {i : Nat} (h : l.First m input captured) (hadj : l.Adjacent i) :
    captured[m.facing i]? = some [] := by
  obtain ⟨t, -, hf⟩ := first_iff_firstFilled.mp h
  rw [Adjacent, delimiters, List.getElem?_dropLast, ite_eq_iff] at hadj
  rcases hadj with ⟨hi, hempty⟩ | ⟨-, hnone⟩
  · exact hf.facing_eq_nil hempty (by omega)
  · cases hnone

/-- All slots of a run but one are faced through one of its empty delimiters. -/
theorem Run.exists_facing (h : l.Run first last) {i : Nat} (hfirst : first ≤ i) (hlast : i ≤ last)
    (hne : i ≠ m.receiver first last) : ∃ j, l.Adjacent j ∧ m.facing j = i := by
  cases m with
  | greedy =>
    have hpos : first < i := Nat.lt_of_le_of_ne hfirst (Ne.symm hne)
    refine ⟨i - 1, h.adjacent _ (by omega) (by omega), ?_⟩
    show i - 1 + 1 = i
    omega
  | lazy =>
    have hlt : i < last := Nat.lt_of_le_of_ne hlast hne
    exact ⟨i, h.adjacent i hfirst hlt, rfl⟩

/-- In a run of slots with no text between them only one gets text, the first if the longest texts
come first, the last if the shortest do.  All others get the empty text, wherever the run stands in
the layout and whatever stands around it. -/
theorem captured_of_run (hranges : l.delimitedRanges? m input = some ranges)
    (hrun : l.Run first last) :
    ranges.length = l.slotCount ∧
    ∀ i, first ≤ i → i ≤ last → i ≠ m.receiver first last →
      ∃ n, ranges[i]? = some ⟨n, n⟩ ∧ Text.slice? input n n = some [] := by
  obtain ⟨captured, hfirst, rfl⟩ := delimitedRanges?_eq_some_iff.mp hranges
  obtain ⟨t, rfl, hf⟩ := splits_iff_filled.mp hfirst.1
  refine ⟨?_, ?_⟩
  · rw [Layout.ranges, length_rangesFrom _ hf, hfirst.1.length_eq]
  · intro i hle hge hne
    obtain ⟨j, hadj, rfl⟩ := hrun.exists_facing hle hge hne
    obtain ⟨a, b, hcut, hrange⟩ := exists_cut_of_getElem? l.head hf (hfirst.facing_eq_nil hadj)
    refine ⟨Text.bytes a, hrange, ?_⟩
    have hslice := Text.slice?_middle a [] b
    rw [← hcut] at hslice
    exact hslice

/-- a run of two slots, a delimiter, and a run of three slots -/
def twoRuns : Layout := ⟨[], [(⟨0⟩, []), (⟨1⟩, ['-']), (⟨2⟩, []), (⟨3⟩, []), (⟨4⟩, [])]⟩

theorem run_twoRuns : twoRuns.Run 2 4 where
  first_le := by decide
  last_lt := by decide
  adjacent := by
    intro i hfirst hlast
    obtain rfl | rfl : i = 2 ∨ i = 3 := by omega
    · decide
    · decide

theorem captured_of_run_twoRuns :
    twoRuns.delimitedRanges? .greedy "x-y-z".toList
      = some [⟨0, 3⟩, ⟨3, 3⟩, ⟨4, 5⟩, ⟨5, 5⟩, ⟨5, 5⟩] ∧
    twoRuns.delimitedRanges? .lazy "x-y-z".toList
      = some [⟨0, 0⟩, ⟨0, 1⟩, ⟨2, 2⟩, ⟨2, 2⟩, ⟨2, 5⟩] ∧
    (∃ n, [⟨0, 0⟩, ⟨0, 1⟩, ⟨2, 2⟩, ⟨2, 2⟩, ⟨2, 5⟩][3]? = some (ByteRange.mk n n) ∧
      Text.slice? "x-y-z".toList n n = some []) := by
  have hgreedy : twoRuns.delimitedRanges? .greedy "x-y-z".toList
      = some [⟨0, 3⟩, ⟨3, 3⟩, ⟨4, 5⟩, ⟨5, 5⟩, ⟨5, 5⟩] := by decide
  have hlazy : twoRuns.delimitedRanges? .lazy "x-y-z".toList
      = some [⟨0, 0⟩, ⟨0, 1⟩, ⟨2, 2⟩, ⟨2, 2⟩, ⟨2, 5⟩] := by decide
  have hrun := (captured_of_run hlazy run_twoRuns).2
  exact ⟨hgreedy, hlazy, hrun 3 (by decide) (by decide) (by decide)⟩

end Layout

end FormatInverse
