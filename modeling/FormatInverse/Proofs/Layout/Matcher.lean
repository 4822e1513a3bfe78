import FormatInverse.Layout.Matcher
import FormatInverse.Proofs.Layout.Delimited
import FormatInverse.Proofs.Layout.Pattern

/-!
# What matching answers under either strategy

Both strategies answer with the split whose lengths come first, so no proof about a match has to ask
which of them it was.
-/

namespace FormatInverse.Layout

open Text (bytes)

variable {l : Layout} {s : Strategy} {m : Capture} {input : Text}

/-! ## the texts at the ranges of a split -/

theorem length_rangesFrom {literals captured : List Text} {t : Text} (n : Nat)
    (h : Filled literals captured t) : (rangesFrom n captured literals).length = captured.length := by
  induction h generalizing n with
  | nil => rfl
  | cons literal c _ ih => exact congrArg Nat.succ (ih _)

/-- The range of a slot cuts its text out of the input. -/
theorem exists_cut_of_getElem? {literals captured : List Text} {t c : Text} {i : Nat} (p : Text)
    (h : Filled literals captured t) (hi : captured[i]? = some c) :
    ∃ a b, p ++ t = a ++ c ++ b ∧
      (rangesFrom (bytes p) captured literals)[i]? = some ⟨bytes a, bytes a + bytes c⟩ := by
  induction h generalizing p i with
  | nil => cases hi
  | @cons literals captured u literal d h ih =>
    cases i with
    | zero =>
      obtain rfl := Option.some.inj hi
      exact ⟨p, literal ++ u, by simp only [List.append_assoc], rfl⟩
    | succ i =>
      obtain ⟨a, b, hcut, hrange⟩ := ih (p ++ d ++ literal) hi
      rw [Text.bytes_append, Text.bytes_append] at hrange
      refine ⟨a, b, ?_, hrange⟩
      rw [← hcut]
      simp only [List.append_assoc]

theorem slices_rangesFrom {literals captured : List Text} {t : Text} (p : Text)
    (h : Filled literals captured t) :
    (rangesFrom (bytes p) captured literals).map (fun r => Text.slice (p ++ t) r.start r.stop)
      = captured := by
  refine List.ext_getElem? fun i => ?_
  rw [List.getElem?_map]
  cases hi : captured[i]? with
  | none =>
    rw [List.getElem?_eq_none_iff] at hi
    rw [List.getElem?_eq_none_iff.mpr ((length_rangesFrom _ h).trans_le hi)]
    rfl
  | some c =>
    obtain ⟨a, b, hcut, hrange⟩ := exists_cut_of_getElem? p h hi
    rw [hrange, Option.map_some, hcut, Text.slice, Text.slice?_middle]
    rfl

theorem Splits.slices_ranges {captured : List Text} (h : l.Splits input captured) :
    (l.ranges captured).map (fun r => Text.slice input r.start r.stop) = captured := by
  obtain ⟨t, rfl, hf⟩ := splits_iff_filled.mp h
  exact slices_rangesFrom l.head hf

/-! ## the answers -/

theorem ranges?_eq_some_iff {ranges : List ByteRange} :
    l.ranges? s m input = some ranges ↔
      ∃ captured, l.First m input captured ∧ ranges = l.ranges captured := by
  cases s with
  | delimited => exact delimitedRanges?_eq_some_iff
  | regex =>
    show l.patternRanges? m input = some ranges ↔ _
    rw [patternRanges?, Option.map_eq_some_iff]
    constructor
    · rintro ⟨captured, htexts, rfl⟩
      exact ⟨captured, patternTexts?_eq_some_iff.mp htexts, rfl⟩
    · rintro ⟨captured, hfirst, rfl⟩
      exact ⟨captured, patternTexts?_eq_some_iff.mpr hfirst, rfl⟩

theorem isMatch_iff : l.isMatch s m input = true ↔ ∃ captured, l.Splits input captured := by
  cases s with
  | regex => exact patternMatches_iff
  | delimited => exact isSome_delimitedRanges?_iff

/-- An input that can be split has a first split. -/
theorem Splits.exists_first {captured : List Text} (h : l.Splits input captured) :
    ∃ texts, l.First m input texts := by
  cases hranges : l.delimitedRanges? m input with
  | none => exact absurd ⟨captured, h⟩ (delimitedRanges?_eq_none_iff.mp hranges)
  | some ranges =>
    obtain ⟨texts, hfirst, -⟩ := delimitedRanges?_eq_some_iff.mp hranges
    exact ⟨texts, hfirst⟩

theorem ranges?_eq_ranges? (s s' : Strategy) (l : Layout) (m : Capture) (input : Text) :
    l.ranges? s m input = l.ranges? s' m input := by
  apply Option.ext
  intro ranges
  rw [ranges?_eq_some_iff, ranges?_eq_some_iff]

theorem isMatch_eq_isMatch (s s' : Strategy) (l : Layout) (m : Capture) (input : Text) :
    l.isMatch s m input = l.isMatch s' m input := by
  rw [Bool.eq_iff_iff, isMatch_iff, isMatch_iff]

end FormatInverse.Layout
