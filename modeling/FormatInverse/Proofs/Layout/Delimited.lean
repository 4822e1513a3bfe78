import FormatInverse.Layout.Delimited
import FormatInverse.Proofs.Layout.Split

/-!
# Matching by delimiters finds the outermost split

Neither scan ever goes back.  That this loses nothing is the content of `latest?_of_filled` and
`earliest?_of_filled`: if the input can be split at all, then the scan succeeds, and every delimiter
stands at least as far to the side the scan comes from as in the given split.

* `delimitedRanges?_of_splits`   the answer is a split, its placements bound those of every split;
* `splits_of_delimitedRanges?`   there is no answer without a split;
* `delimitedRanges?_lexicographic`   the answer is the first split in the order of the lengths.
-/

namespace FormatInverse

namespace Filled

variable {ds captured : List Text} {c t last : Text}

theorem exists_head (h : Filled (ds ++ [last]) captured t) :
    ∃ c rest, captured = c :: rest := by
  cases ds with
  | nil =>
    obtain ⟨c, rest, -, hc, -, -⟩ := h.exists_cons
    exact ⟨c, rest, hc⟩
  | cons d ds =>
    obtain ⟨c, rest, -, hc, -, -⟩ := h.exists_cons
    exact ⟨c, rest, hc⟩

theorem head_isPrefix {literals : List Text} (h : Filled literals (c :: captured) t) : c <+: t := by
  cases h with
  | cons literal _ _ => exact Text.isPrefix_of_eq_append rfl

end Filled

namespace Layout

open Text (bytes)

@[simp] theorem placements_nil (lo : Nat) (captured : List Text) :
    placements lo captured [] = [] := by
  cases captured <;> rfl

theorem slice?_front (p t : Text) {c : Text} (h : c <+: t) :
    Text.slice? (p ++ t) (bytes p) (bytes p + bytes c) = some c := by
  obtain ⟨r, rfl⟩ := h
  rw [← List.append_assoc]
  exact Text.slice?_middle p c r

/-! ## scanning from the right -/

/-- The text in front of the placed delimiters is the first text of the split. -/
theorem slice?_window {ds captured : List Text} {c t last : Text} (p : Text)
    (h : Filled (ds ++ [last]) (c :: captured) (t ++ last)) :
    Text.slice? (p ++ (t ++ last)) (bytes p)
      ((placements (bytes p) (c :: captured) ds).headD (bytes p + bytes t)) = some c := by
  rw [headD_placements (bytes p) h]
  exact slice?_front p (t ++ last) h.head_isPrefix

theorem headD_le_headD {as bs : List Nat} (n : Nat)
    (h : List.Forall₂ Capture.greedy.Before as bs) : bs.headD n ≤ as.headD n := by
  cases h with
  | nil => exact Nat.le_refl n
  | cons h _ => exact h

theorem latest?_cons {ds captured : List Text} {c d t last : Text} {k : Nat} (p : Text)
    (hlatest : latest? (p ++ (t ++ last)) (bytes p) (bytes p + bytes t) ds
      = some (placements (bytes p) (c :: captured) ds))
    (h : Filled (ds ++ [last]) (c :: captured) (t ++ last)) (hfind : Text.rfind? d c = some k) :
    latest? (p ++ (t ++ last)) (bytes p) (bytes p + bytes t) (d :: ds)
      = some ((bytes p + k) :: placements (bytes p) (c :: captured) ds) := by
  rw [latest?, hlatest]
  show (do
    let window ← Text.slice? (p ++ (t ++ last)) (bytes p) (List.headD _ _)
    let k ← Text.rfind? d window
    return (bytes p + k) :: placements (bytes p) (c :: captured) ds) = _
  rw [slice?_window p h]
  show (do
    let k ← Text.rfind? d c
    return (bytes p + k) :: placements (bytes p) (c :: captured) ds) = _
  rw [hfind]
  rfl

theorem latest?_of_filled {ds captured' : List Text} (p t last : Text)
    (h : Filled (ds ++ [last]) captured' (t ++ last)) :
    ∃ captured, latest? (p ++ (t ++ last)) (bytes p) (bytes p + bytes t) ds
        = some (placements (bytes p) captured ds) ∧
      Filled (ds ++ [last]) captured (t ++ last) ∧
      List.Forall₂ Capture.greedy.Before (placements (bytes p) captured ds)
        (placements (bytes p) captured' ds) := by
  induction ds generalizing captured' with
  | nil =>
    refine ⟨captured', ?_, h, ?_⟩
    · rw [placements_nil, latest?]
    · rw [placements_nil]
      exact List.Forall₂.nil
  | cons d ds ih =>
    obtain ⟨a, rest, u, rfl, -, hrest⟩ := h.exists_cons
    obtain ⟨b, rest, rfl⟩ := hrest.exists_head
    -- without its first delimiter the given split is one that the rest of the scan can be held to
    obtain ⟨captured, hlatest, hfilled, hbefore⟩ := ih h.merge
    obtain ⟨c, cs, rfl⟩ := hfilled.exists_head
    have hle := headD_le_headD (bytes p + bytes t) hbefore
    rw [headD_placements (bytes p) hfilled, headD_placements (bytes p) h.merge] at hle
    obtain ⟨e, rfl⟩ : a ++ d ++ b <+: c := Text.prefix_of_bytes_le h.merge.head_isPrefix
      hfilled.head_isPrefix (Nat.le_of_add_le_add_left hle)
    obtain ⟨a', b', hc, hfind, hle'⟩ := Text.rfind?_append a d (b ++ e)
    rw [← List.append_assoc] at hc hfind
    have hscan := latest?_cons p hlatest hfilled hfind
    rw [hc] at hfilled
    refine ⟨a' :: b' :: cs, ?_, hfilled.unmerge, ?_⟩
    · rw [placements_merge, ← hc]
      exact hscan
    · rw [placements_merge, placements_merge, ← hc]
      exact List.Forall₂.cons (Nat.add_le_add_left hle' (bytes p)) hbefore

theorem exists_filled_of_latest? {ds : List Text} {starts : List Nat} (p t last : Text)
    (h : latest? (p ++ (t ++ last)) (bytes p) (bytes p + bytes t) ds = some starts) :
    ∃ captured, Filled (ds ++ [last]) captured (t ++ last) := by
  induction ds generalizing starts with
  | nil => exact ⟨[t], Filled.singleton_iff.mpr rfl⟩
  | cons d ds ih =>
    simp only [latest?, Option.bind_eq_bind, Option.bind_eq_some_iff] at h
    obtain ⟨starts', hstarts, window, hwindow, k, hk, -⟩ := h
    obtain ⟨captured', hfilled'⟩ := ih hstarts
    obtain ⟨captured, hlatest, hfilled, -⟩ := latest?_of_filled p t last hfilled'
    obtain ⟨c, cs, rfl⟩ := hfilled.exists_head
    rw [Option.some.inj (hstarts.symm.trans hlatest), slice?_window p hfilled] at hwindow
    obtain rfl := Option.some.inj hwindow
    obtain ⟨a, b, rfl, -⟩ := Text.eq_append_of_rfind? hk
    exact ⟨a :: b :: cs, hfilled.unmerge⟩

/-! ## scanning from the left -/

theorem earliest?_cons {ds : List Text} {a d t last : Text} {starts : List Nat} (p : Text)
    (hfind : Text.find? d t = some (bytes a))
    (hearliest : earliest? (p ++ (t ++ last)) (bytes p + bytes a + bytes d) (bytes p + bytes t) ds
      = some starts) :
    earliest? (p ++ (t ++ last)) (bytes p) (bytes p + bytes t) (d :: ds)
      = some ((bytes p + bytes a) :: starts) := by
  rw [earliest?, slice?_front p _ (List.prefix_append t last)]
  show (do
    let k ← Text.find? d t
    let starts ← earliest? _ (bytes p + k + bytes d) _ ds
    return (bytes p + k) :: starts) = _
  rw [hfind]
  show (do
    let starts ← earliest? _ (bytes p + bytes a + bytes d) _ ds
    return (bytes p + bytes a) :: starts) = _
  rw [hearliest]
  rfl

/-- Behind an earlier occurrence the first text begins earlier, by a text `y`. -/
theorem exists_prepend {ds captured : List Text} {a a' b d v w last : Text}
    (heq : a ++ d ++ v = a' ++ d ++ w) (hle : bytes a' ≤ bytes a)
    (h : Filled (ds ++ [last]) (b :: captured) (v ++ last)) :
    ∃ y, Filled (ds ++ [last]) ((y ++ b) :: captured) (w ++ last) ∧
      bytes a' + bytes d + bytes y = bytes a + bytes d := by
  have hbytes : bytes a + bytes d + bytes v = bytes a' + bytes d + bytes w := by
    have := congrArg bytes heq
    simpa only [Text.bytes_append] using this
  obtain ⟨y, rfl⟩ : v <:+ w := Text.suffix_of_bytes_le
    (List.suffix_append (a ++ d) v) ⟨a' ++ d, heq.symm⟩ (by omega)
  rw [Text.bytes_append] at hbytes
  refine ⟨y, ?_, by omega⟩
  rw [List.append_assoc]
  exact h.prepend y

theorem earliest?_of_filled {ds captured' : List Text} (p t last : Text)
    (h : Filled (ds ++ [last]) captured' (t ++ last)) :
    ∃ captured, earliest? (p ++ (t ++ last)) (bytes p) (bytes p + bytes t) ds
        = some (placements (bytes p) captured ds) ∧
      Filled (ds ++ [last]) captured (t ++ last) ∧
      List.Forall₂ Capture.lazy.Before (placements (bytes p) captured ds)
        (placements (bytes p) captured' ds) := by
  induction ds generalizing p t captured' with
  | nil =>
    refine ⟨captured', ?_, h, ?_⟩
    · rw [placements_nil, earliest?]
    · rw [placements_nil]
      exact List.Forall₂.nil
  | cons d ds ih =>
    obtain ⟨a, rest, v, rfl, rfl, hrest⟩ := h.exists_cons_append
    obtain ⟨b, rest, rfl⟩ := hrest.exists_head
    obtain ⟨a', w, heq, hfind, hle⟩ := Text.find?_append a d v
    obtain ⟨y, hrest', hy⟩ := exists_prepend heq hle hrest
    obtain ⟨captured, hearliest, hfilled, hbefore⟩ := ih (p ++ a' ++ d) w hrest'
    have hinput : p ++ a' ++ d ++ (w ++ last) = p ++ (a ++ d ++ v ++ last) := by
      rw [heq]
      simp only [List.append_assoc]
    have hlo : bytes (p ++ a' ++ d) = bytes p + bytes a' + bytes d := by
      rw [Text.bytes_append, Text.bytes_append]
    have hhi : bytes (p ++ a' ++ d) + bytes w = bytes p + bytes (a ++ d ++ v) := by
      rw [heq]
      simp only [Text.bytes_append]
      omega
    rw [hinput, hhi, hlo] at hearliest
    rw [hlo, placements_append_cons] at hbefore
    refine ⟨a' :: captured, earliest?_cons p hfind hearliest, ?_, ?_⟩
    · rw [heq, List.append_assoc (a' ++ d)]
      exact Filled.cons d a' hfilled
    · refine List.Forall₂.cons (Nat.add_le_add_left hle (bytes p)) ?_
      have e : bytes p + bytes a' + bytes d + bytes y = bytes p + bytes a + bytes d := by omega
      rw [e] at hbefore
      exact hbefore

theorem exists_filled_of_earliest? {ds : List Text} {starts : List Nat} (p t last : Text)
    (h : earliest? (p ++ (t ++ last)) (bytes p) (bytes p + bytes t) ds = some starts) :
    ∃ captured, Filled (ds ++ [last]) captured (t ++ last) := by
  induction ds generalizing p t starts with
  | nil => exact ⟨[t], Filled.singleton_iff.mpr rfl⟩
  | cons d ds ih =>
    rw [earliest?, slice?_front p _ (List.prefix_append t last)] at h
    simp only [Option.bind_eq_bind, Option.bind_some, Option.bind_eq_some_iff] at h
    obtain ⟨k, hk, starts', hstarts, -⟩ := h
    obtain ⟨a, b, rfl, rfl⟩ := Text.eq_append_of_find? hk
    have hinput : p ++ (a ++ d ++ b ++ last) = p ++ a ++ d ++ (b ++ last) := by
      simp only [List.append_assoc]
    have hlo : bytes p + bytes a + bytes d = bytes (p ++ a ++ d) := by
      rw [Text.bytes_append, Text.bytes_append]
    have hhi : bytes p + bytes (a ++ d ++ b) = bytes (p ++ a ++ d) + bytes b := by
      simp only [Text.bytes_append]
      omega
    rw [hinput, hlo, hhi] at hstarts
    obtain ⟨captured, hfilled⟩ := ih (p ++ a ++ d) b hstarts
    refine ⟨a :: captured, ?_⟩
    rw [List.append_assoc (a ++ d)]
    exact Filled.cons d a hfilled

/-! ## the scan of a capture mode -/

theorem placements?_of_filled {m : Capture} {ds captured' : List Text} (p t last : Text)
    (h : Filled (ds ++ [last]) captured' (t ++ last)) :
    ∃ captured, placements? m (p ++ (t ++ last)) (bytes p) (bytes p + bytes t) ds
        = some (placements (bytes p) captured ds) ∧
      Filled (ds ++ [last]) captured (t ++ last) ∧
      ∀ other, Filled (ds ++ [last]) other (t ++ last) →
        List.Forall₂ m.Before (placements (bytes p) captured ds)
          (placements (bytes p) other ds) := by
  have key : ∀ other, Filled (ds ++ [last]) other (t ++ last) →
      ∃ captured, placements? m (p ++ (t ++ last)) (bytes p) (bytes p + bytes t) ds
          = some (placements (bytes p) captured ds) ∧
        Filled (ds ++ [last]) captured (t ++ last) ∧
        List.Forall₂ m.Before (placements (bytes p) captured ds)
          (placements (bytes p) other ds) := by
    intro other ho
    cases m
    · exact latest?_of_filled p t last ho
    · exact earliest?_of_filled p t last ho
  obtain ⟨captured, hp, hf, -⟩ := key captured' h
  refine ⟨captured, hp, hf, fun other ho => ?_⟩
  obtain ⟨captured₂, hp₂, -, hbefore⟩ := key other ho
  rw [Option.some.inj (hp.symm.trans hp₂)]
  exact hbefore

theorem exists_filled_of_placements? {m : Capture} {ds : List Text} {starts : List Nat}
    (p t last : Text)
    (h : placements? m (p ++ (t ++ last)) (bytes p) (bytes p + bytes t) ds = some starts) :
    ∃ captured, Filled (ds ++ [last]) captured (t ++ last) := by
  cases m
  · exact exists_filled_of_latest? p t last h
  · exact exists_filled_of_earliest? p t last h

theorem gaps_placements {ds captured : List Text} {t last : Text} (lo : Nat)
    (h : Filled (ds ++ [last]) captured (t ++ last)) :
    gaps lo (lo + bytes t) ds (placements lo captured ds)
      = rangesFrom lo captured (ds ++ [last]) := by
  induction ds generalizing lo captured t with
  | nil =>
    rw [Filled.singleton_iff.mp h]
    rfl
  | cons d ds ih =>
    obtain ⟨c, rest, v, rfl, rfl, hrest⟩ := h.exists_cons_append
    have hhi : lo + bytes (c ++ d ++ v) = lo + bytes c + bytes d + bytes v := by
      simp only [Text.bytes_append]
      omega
    rw [hhi, placements, gaps, ih _ hrest]
    rfl

/-! ## the two ends of the input -/

theorem literals_eq_append {l : Layout} (h : l.tail ≠ []) :
    l.tail.map (·.2) = l.delimiters ++ [l.last] := by
  have hne : l.tail.map (·.2) ≠ [] := fun e => h (List.map_eq_nil_iff.mp e)
  have hlast : l.last = (l.tail.map (·.2)).getLast hne := by
    rw [last, List.getLastD_eq_getLast?, List.getLast?_eq_some_getLast hne]
    rfl
  rw [delimiters, hlast, List.dropLast_append_getLast hne]

theorem splits_iff_of_tail_eq_nil {l : Layout} {input : Text} {captured : List Text}
    (h : l.tail = []) : l.Splits input captured ↔ captured = [] ∧ input = l.head := by
  rw [splits_iff_filled, h]
  constructor
  · rintro ⟨t, rfl, hf⟩
    cases hf
    exact ⟨rfl, List.append_nil _⟩
  · rintro ⟨rfl, rfl⟩
    exact ⟨[], (List.append_nil _).symm, Filled.nil⟩

theorem splits_iff_of_tail_ne_nil {l : Layout} {input : Text} {captured : List Text}
    (h : l.tail ≠ []) : l.Splits input captured ↔
      ∃ t, input = l.head ++ (t ++ l.last) ∧
        Filled (l.delimiters ++ [l.last]) captured (t ++ l.last) := by
  rw [splits_iff_filled, literals_eq_append h]
  constructor
  · rintro ⟨u, rfl, hf⟩
    obtain ⟨t, rfl⟩ := hf.exists_append
    exact ⟨t, rfl, hf⟩
  · rintro ⟨t, rfl, hf⟩
    exact ⟨_, rfl, hf⟩

variable {m : Capture} {l : Layout} {input : Text}

/-- The first and the last literal can be cut off exactly if they do not overlap. -/
theorem ends_iff : (bytes input < bytes l.head + bytes l.last ∨
      ¬ l.head <+: input ∨ ¬ l.last <:+ input) ↔
    ¬ ∃ t, input = l.head ++ (t ++ l.last) := by
  constructor
  · rintro h ⟨t, rfl⟩
    rcases h with h | h | h
    · simp only [Text.bytes_append] at h
      omega
    · exact h (List.prefix_append _ _)
    · exact h ⟨l.head ++ t, List.append_assoc _ _ _⟩
  · intro h
    by_contra hc
    simp only [not_or, not_lt, not_not] at hc
    obtain ⟨hlen, ⟨r, rfl⟩, hsuffix⟩ := hc
    rw [Text.bytes_append] at hlen
    obtain ⟨t, rfl⟩ : l.last <:+ r :=
      Text.suffix_of_bytes_le hsuffix (List.suffix_append _ r) (by omega)
    exact h ⟨t, rfl⟩

theorem delimitedRanges?_of_tail_eq_nil (h : l.tail = []) :
    l.delimitedRanges? m input = if input = l.head then some [] else none := by
  rw [delimitedRanges?, h]
  rfl

theorem delimitedRanges?_of_tail_ne_nil (h : l.tail ≠ []) :
    l.delimitedRanges? m input =
      if bytes input < bytes l.head + bytes l.last ∨ ¬ l.head <+: input ∨ ¬ l.last <:+ input
      then none
      else (placements? m input (bytes l.head) (bytes input - bytes l.last) l.delimiters).map
        (gaps (bytes l.head) (bytes input - bytes l.last) l.delimiters) := by
  have he : l.tail.isEmpty = false := by
    rw [List.isEmpty_eq_false_iff]
    exact h
  simp only [delimitedRanges?, he, Bool.false_eq_true, if_false, Bool.or_eq_true,
    decide_eq_true_eq, Bool.not_eq_true', ← Bool.not_eq_true, List.isPrefixOf_iff_prefix,
    List.isSuffixOf_iff_suffix, or_assoc]

theorem bytes_sub_last (l : Layout) (t : Text) :
    bytes (l.head ++ (t ++ l.last)) - bytes l.last = bytes l.head + bytes t := by
  simp only [Text.bytes_append]
  omega

theorem delimitedRanges?_middle (h : l.tail ≠ []) (t : Text) :
    l.delimitedRanges? m (l.head ++ (t ++ l.last)) =
      (placements? m (l.head ++ (t ++ l.last)) (bytes l.head) (bytes l.head + bytes t)
        l.delimiters).map (gaps (bytes l.head) (bytes l.head + bytes t) l.delimiters) := by
  rw [delimitedRanges?_of_tail_ne_nil h, if_neg (fun he => ends_iff.mp he ⟨t, rfl⟩),
    bytes_sub_last]

/-! ## the answer -/

/-- If there is a split, the answer is one, and no split has a delimiter further on the side the
scan comes from. -/
theorem delimitedRanges?_of_splits {captured' : List Text} (h : l.Splits input captured') :
    ∃ captured, l.delimitedRanges? m input = some (l.ranges captured) ∧
      l.Splits input captured ∧
      ∀ other, l.Splits input other →
        List.Forall₂ m.Before (l.placed captured) (l.placed other) := by
  by_cases htail : l.tail = []
  · obtain ⟨rfl, rfl⟩ := (splits_iff_of_tail_eq_nil htail).mp h
    refine ⟨[], ?_, h, fun other ho => ?_⟩
    · rw [delimitedRanges?_of_tail_eq_nil htail, if_pos rfl]
      rfl
    · rw [((splits_iff_of_tail_eq_nil htail).mp ho).1]
      exact List.Forall₂.nil
  · obtain ⟨t, rfl, hf'⟩ := (splits_iff_of_tail_ne_nil htail).mp h
    obtain ⟨captured, hp, hf, hbefore⟩ := placements?_of_filled (m := m) l.head t l.last hf'
    refine ⟨captured, ?_, (splits_iff_of_tail_ne_nil htail).mpr ⟨t, rfl, hf⟩, fun other ho => ?_⟩
    · rw [delimitedRanges?_middle htail, hp, Option.map_some, gaps_placements _ hf, ranges,
        literals_eq_append htail]
    · obtain ⟨t', ht, ho'⟩ := (splits_iff_of_tail_ne_nil htail).mp ho
      rw [← List.append_cancel_right (List.append_cancel_left ht)] at ho'
      exact hbefore other ho'

/-- There is no answer without a split, and no split has its delimiters further on the side tried
first. -/
theorem splits_of_delimitedRanges? {ranges : List ByteRange}
    (h : l.delimitedRanges? m input = some ranges) :
    ∃ captured, l.Splits input captured ∧ ranges = l.ranges captured ∧
      ∀ other, l.Splits input other →
        List.Forall₂ m.Before (l.placed captured) (l.placed other) := by
  suffices hs : ∃ captured, l.Splits input captured by
    obtain ⟨captured', hs'⟩ := hs
    obtain ⟨captured, hr, hs, hbefore⟩ := delimitedRanges?_of_splits (m := m) hs'
    exact ⟨captured, hs, Option.some.inj (h.symm.trans hr), hbefore⟩
  by_cases htail : l.tail = []
  · rw [delimitedRanges?_of_tail_eq_nil htail, Option.ite_none_right_eq_some] at h
    exact ⟨[], (splits_iff_of_tail_eq_nil htail).mpr ⟨rfl, h.1⟩⟩
  · by_cases hends : ∃ t, input = l.head ++ (t ++ l.last)
    · obtain ⟨t, rfl⟩ := hends
      rw [delimitedRanges?_middle htail] at h
      obtain ⟨starts, hstarts, -⟩ := Option.map_eq_some_iff.mp h
      obtain ⟨captured, hf⟩ := exists_filled_of_placements? l.head t l.last hstarts
      exact ⟨captured, (splits_iff_of_tail_ne_nil htail).mpr ⟨t, rfl, hf⟩⟩
    · rw [delimitedRanges?_of_tail_ne_nil htail, if_pos (ends_iff.mpr hends)] at h
      cases h

/-- Delimiters that stand on the side tried first make the lengths come first. -/
theorem Splits.before_lengths {captured captured' : List Text} (h : l.Splits input captured)
    (h' : l.Splits input captured')
    (hp : List.Forall₂ m.Before (l.placed captured) (l.placed captured')) :
    m.Before (captured.map bytes) (captured'.map bytes) := by
  by_cases htail : l.tail = []
  · rw [((splits_iff_of_tail_eq_nil htail).mp h).1, ((splits_iff_of_tail_eq_nil htail).mp h').1]
    exact Capture.Before.refl _
  · obtain ⟨t, rfl, hf⟩ := (splits_iff_of_tail_ne_nil htail).mp h
    obtain ⟨t', ht, hf'⟩ := (splits_iff_of_tail_ne_nil htail).mp h'
    rw [← List.append_cancel_left ht] at hf'
    exact Layout.before_lengths _ hf hf' hp

theorem delimitedRanges?_eq_some_iff {ranges : List ByteRange} :
    l.delimitedRanges? m input = some ranges ↔
      ∃ captured, l.First m input captured ∧ ranges = l.ranges captured := by
  constructor
  · intro h
    obtain ⟨captured, hs, hr, hbefore⟩ := splits_of_delimitedRanges? h
    exact ⟨captured, ⟨hs, fun other ho => hs.before_lengths ho (hbefore other ho)⟩, hr⟩
  · rintro ⟨captured', hfirst, rfl⟩
    obtain ⟨captured, hr, hs, hbefore⟩ := delimitedRanges?_of_splits (m := m) hfirst.1
    have h : l.First m input captured :=
      ⟨hs, fun other ho => hs.before_lengths ho (hbefore other ho)⟩
    rw [hr, h.eq hfirst]

theorem delimitedRanges?_eq_none_iff :
    l.delimitedRanges? m input = none ↔ ¬ ∃ captured, l.Splits input captured := by
  constructor
  · rintro h ⟨captured', hs⟩
    obtain ⟨captured, hr, -, -⟩ := delimitedRanges?_of_splits (m := m) hs
    rw [h] at hr
    cases hr
  · intro h
    cases hr : l.delimitedRanges? m input with
    | none => rfl
    | some ranges =>
      obtain ⟨captured, hs, -⟩ := splits_of_delimitedRanges? hr
      exact absurd ⟨captured, hs⟩ h

theorem isSome_delimitedRanges?_iff :
    (l.delimitedRanges? m input).isSome ↔ ∃ captured, l.Splits input captured := by
  rw [← not_iff_not, ← delimitedRanges?_eq_none_iff (m := m), Option.not_isSome_iff_eq_none]

/-- There is no answer exactly if the input has no split.  Otherwise the answer is the ranges of the
split whose tuple of lengths is the lexicographically greatest, for the longest texts, and the
lexicographically least, for the shortest. -/
theorem delimitedRanges?_lexicographic (l : Layout) (input : Text) :
    (∀ m, l.delimitedRanges? m input = none ↔ ¬ ∃ captured, l.Splits input captured) ∧
    (∀ ranges, l.delimitedRanges? .greedy input = some ranges ↔
      ∃ captured, l.Splits input captured ∧ ranges = l.ranges captured ∧
        ∀ other, l.Splits input other → other.map bytes ≤ captured.map bytes) ∧
    (∀ ranges, l.delimitedRanges? .lazy input = some ranges ↔
      ∃ captured, l.Splits input captured ∧ ranges = l.ranges captured ∧
        ∀ other, l.Splits input other → captured.map bytes ≤ other.map bytes) := by
  refine ⟨fun m => delimitedRanges?_eq_none_iff, fun ranges => ?_, fun ranges => ?_⟩
  · rw [delimitedRanges?_eq_some_iff]
    constructor
    · rintro ⟨captured, ⟨hs, hbefore⟩, hr⟩
      exact ⟨captured, hs, hr, hbefore⟩
    · rintro ⟨captured, hs, hr, hbefore⟩
      exact ⟨captured, ⟨hs, hbefore⟩, hr⟩
  · rw [delimitedRanges?_eq_some_iff]
    constructor
    · rintro ⟨captured, ⟨hs, hbefore⟩, hr⟩
      exact ⟨captured, hs, hr, hbefore⟩
    · rintro ⟨captured, hs, hr, hbefore⟩
      exact ⟨captured, ⟨hs, hbefore⟩, hr⟩

example : (⟨[], [(⟨0⟩, ['-']), (⟨1⟩, [])]⟩ : Layout).delimitedRanges? .greedy "a-b-c".toList
    = some [⟨0, 3⟩, ⟨4, 5⟩] := by decide

example : (⟨[], [(⟨0⟩, ['-']), (⟨1⟩, [])]⟩ : Layout).delimitedRanges? .lazy "a-b-c".toList
    = some [⟨0, 1⟩, ⟨2, 5⟩] := by decide

end Layout

end FormatInverse
