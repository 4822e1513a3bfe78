import FormatInverse.Proofs.Layout.Matcher
import FormatInverse.Proofs.Text.Utf8

/-!
# Every slice lies between boundaries

`Layout.scan` matches by delimiters as a program on bytes does: it takes the input as bytes, knows
of no characters, and searches windows of them from the delimiter at the far side on.  It also keeps
the windows that it cut out of the input, those of a scan that fails included.

* `Scan.Follows`   each window begins and ends at a boundary, and the answer is a given one;
* `latestScan_follows`, `earliestScan_follows`   by induction on the delimiters, since what was found
  last is a boundary;
* `slicing_safe`   the windows and the ranges that are the answer.
-/

namespace FormatInverse

open Text (bytes utf8)

namespace ByteRange

/-- the bytes of a range -/
def of (r : ByteRange) (bs : List UInt8) : List UInt8 := (bs.take r.stop).drop r.start

/-- The range is one of the text, from a boundary to a boundary. -/
structure Cuts (r : ByteRange) (t : Text) : Prop where
  start_le_stop : r.start ≤ r.stop
  stop_le : r.stop ≤ bytes t
  start_boundary : t.Boundary r.start
  stop_boundary : t.Boundary r.stop

theorem cuts_middle (a s b : Text) :
    (⟨bytes a, bytes a + bytes s⟩ : ByteRange).Cuts (a ++ s ++ b) where
  start_le_stop := Nat.le_add_right _ _
  stop_le := by
    rw [Text.bytes_append, Text.bytes_append]
    exact Nat.le_add_right _ _
  start_boundary := Text.boundary_iff.mpr ⟨a, s ++ b, List.append_assoc a s b, rfl⟩
  stop_boundary := Text.boundary_iff.mpr ⟨a ++ s, b, rfl, (Text.bytes_append a s).symm⟩

theorem Cuts.exists_middle {t : Text} {start stop : Nat} (h : (⟨start, stop⟩ : ByteRange).Cuts t) :
    ∃ a s b, t = a ++ s ++ b ∧ start = bytes a ∧ stop = bytes a + bytes s := by
  obtain ⟨a, u, ht, rfl⟩ := Text.boundary_iff.mp h.start_boundary
  obtain ⟨a', b, rfl, rfl⟩ := Text.boundary_iff.mp h.stop_boundary
  obtain ⟨s, rfl⟩ := Text.prefix_of_bytes_le ⟨u, ht.symm⟩ (List.prefix_append a' b) h.start_le_stop
  exact ⟨a, s, b, rfl, rfl, Text.bytes_append a s⟩

/-- Slicing fails off the boundaries and only there. -/
theorem isSome_slice?_iff {t : Text} {start stop : Nat} :
    (Text.slice? t start stop).isSome ↔ (⟨start, stop⟩ : ByteRange).Cuts t := by
  rw [Option.isSome_iff_exists]
  constructor
  · rintro ⟨s, hs⟩
    obtain ⟨a, b, rfl, rfl, rfl⟩ := Text.slice?_eq_some_iff.mp hs
    exact cuts_middle a s b
  · intro h
    obtain ⟨a, s, b, rfl, rfl, rfl⟩ := h.exists_middle
    exact ⟨s, Text.slice?_middle a s b⟩

theorem of_utf8 (a s b : Text) :
    (⟨bytes a, bytes a + bytes s⟩ : ByteRange).of (utf8 (a ++ s ++ b)) = utf8 s := by
  rw [of, ← Text.length_utf8, ← Text.length_utf8, ← List.length_append, Text.utf8_append,
    Text.utf8_append, List.take_left, List.drop_left]

end ByteRange

/-! ## scanning bytes -/

/-- the windows that a scan cuts out of the input, and what it answers -/
structure Scan (α : Type) where
  windows : List ByteRange
  answer? : Option α

namespace Scan

variable {α β : Type}

def map (f : α → β) (s : Scan α) : Scan β := ⟨s.windows, s.answer?.map f⟩

/-- the scan that goes on with `s` once `w` is cut out -/
def after (w : ByteRange) (s : Scan α) : Scan α := ⟨w :: s.windows, s.answer?⟩

/-- All windows cut the input, and the answer is a given one. -/
structure Follows (s : Scan α) (input : Text) (answer? : Option α) : Prop where
  cuts : ∀ r ∈ s.windows, r.Cuts input
  answer_eq : s.answer? = answer?

variable {s : Scan α} {input : Text} {answer? : Option α} {w : ByteRange}

theorem follows_done (answer? : Option α) : Follows ⟨[], answer?⟩ input answer? :=
  ⟨List.forall_mem_nil _, rfl⟩

theorem Follows.map (h : s.Follows input answer?) (f : α → β) :
    (s.map f).Follows input (answer?.map f) :=
  ⟨h.cuts, congrArg (Option.map f) h.answer_eq⟩

theorem Follows.after (h : s.Follows input answer?) (hw : w.Cuts input) :
    (s.after w).Follows input answer? :=
  ⟨List.forall_mem_cons.mpr ⟨hw, h.cuts⟩, h.answer_eq⟩

end Scan

namespace Layout

/-- The delimiters, the last one first, each at its last position between `lo` and `limit`. -/
def latestScan (bs : List UInt8) (lo limit : Nat) : List Text → Scan (List Nat)
  | [] => ⟨[], some []⟩
  | delimiter :: rest =>
    let window : ByteRange := ⟨lo, limit⟩
    Scan.after window <|
      match Text.lastAt? (utf8 delimiter) (window.of bs) with
      | none => ⟨[], none⟩
      | some k => (latestScan bs lo (lo + k) rest).map (· ++ [lo + k])

/-- The delimiters, the first one first, each at its first position between `cursor` and `hi`. -/
def earliestScan (bs : List UInt8) (cursor hi : Nat) : List Text → Scan (List Nat)
  | [] => ⟨[], some []⟩
  | delimiter :: rest =>
    let window : ByteRange := ⟨cursor, hi⟩
    Scan.after window <|
      match Text.firstAt? (utf8 delimiter) (window.of bs) with
      | none => ⟨[], none⟩
      | some k =>
        (earliestScan bs (cursor + k + (utf8 delimiter).length) hi rest).map ((cursor + k) :: ·)

def placementsScan (m : Capture) (bs : List UInt8) (lo hi : Nat) (delimiters : List Text) :
    Scan (List Nat) :=
  match m with
  | .greedy => latestScan bs lo hi delimiters.reverse
  | .lazy => earliestScan bs lo hi delimiters

/-- Matching by delimiters, on the bytes of the input. -/
def scan (l : Layout) (m : Capture) (bs : List UInt8) : Scan (List ByteRange) :=
  if l.tail.isEmpty then ⟨[], if bs = utf8 l.head then some [] else none⟩
  else if bs.length < (utf8 l.head).length + (utf8 l.last).length
      || !(utf8 l.head).isPrefixOf bs || !(utf8 l.last).isSuffixOf bs then ⟨[], none⟩
  else
    let lo := (utf8 l.head).length
    let hi := bs.length - (utf8 l.last).length
    (placementsScan m bs lo hi l.delimiters).map (gaps lo hi l.delimiters)

variable {input : Text} {lo hi : Nat}

/-! ## what is found last is a boundary -/

theorem headD_concat (starts : List Nat) (start n : Nat) :
    (starts ++ [start]).headD n = starts.headD start := by
  cases starts <;> rfl

theorem earliest?_eq_bind (input : Text) (lo hi : Nat) (d : Text) (ds : List Text) :
    earliest? input lo hi (d :: ds) =
      (Text.slice? input lo hi).bind fun window => (Text.find? d window).bind fun k =>
        (earliest? input (lo + k + bytes d) hi ds).map ((lo + k) :: ·) := by
  simp only [earliest?, Option.map_eq_bind]
  rfl

theorem latest?_concat (input : Text) (lo hi : Nat) (ds : List Text) (d : Text) :
    latest? input lo hi (ds ++ [d]) =
      (Text.slice? input lo hi).bind fun window => (Text.rfind? d window).bind fun k =>
        (latest? input lo (lo + k) ds).map (· ++ [lo + k]) := by
  induction ds with
  | nil => rfl
  | cons e ds ih =>
    rw [List.cons_append, latest?, ih]
    simp only [latest?, Option.bind_eq_bind, Option.pure_def, Option.bind_assoc, Option.map_bind,
      Option.bind_map, Function.comp_def, headD_concat, Option.map_some, List.cons_append]

theorem latestScan_follows {limit : Nat} (ds : List Text)
    (h : (⟨lo, limit⟩ : ByteRange).Cuts input) :
    (latestScan (utf8 input) lo limit ds).Follows input (latest? input lo limit ds.reverse) := by
  induction ds generalizing limit with
  | nil => exact Scan.follows_done _
  | cons d ds ih =>
    obtain ⟨a, s, b, rfl, rfl, rfl⟩ := h.exists_middle
    rw [latestScan, List.reverse_cons, latest?_concat, Text.slice?_middle, ByteRange.of_utf8,
      Text.lastAt?_utf8, Option.bind_some]
    refine Scan.Follows.after ?_ h
    cases hfind : Text.rfind? d s with
    | none => exact Scan.follows_done _
    | some k =>
      obtain ⟨x, y, rfl, rfl⟩ := Text.eq_append_of_rfind? hfind
      refine (ih ?_).map _
      -- the next window ends where the delimiter begins
      have hcut := ByteRange.cuts_middle a x (d ++ y ++ b)
      simpa only [List.append_assoc] using hcut

theorem earliestScan_follows {cursor : Nat} (ds : List Text)
    (h : (⟨cursor, hi⟩ : ByteRange).Cuts input) :
    (earliestScan (utf8 input) cursor hi ds).Follows input (earliest? input cursor hi ds) := by
  induction ds generalizing cursor with
  | nil => exact Scan.follows_done _
  | cons d ds ih =>
    obtain ⟨a, s, b, rfl, rfl, rfl⟩ := h.exists_middle
    rw [earliestScan, earliest?_eq_bind, Text.slice?_middle, ByteRange.of_utf8, Text.firstAt?_utf8,
      Text.length_utf8, Option.bind_some]
    refine Scan.Follows.after ?_ h
    cases hfind : Text.find? d s with
    | none => exact Scan.follows_done _
    | some k =>
      obtain ⟨x, y, rfl, rfl⟩ := Text.eq_append_of_find? hfind
      refine (ih ?_).map _
      -- the next window begins where the delimiter ends
      have hcut := ByteRange.cuts_middle (a ++ x ++ d) y b
      simpa only [List.append_assoc, Text.bytes_append, Nat.add_assoc] using hcut

variable {l : Layout} {m : Capture}

theorem placementsScan_follows (ds : List Text) (h : (⟨lo, hi⟩ : ByteRange).Cuts input) :
    (placementsScan m (utf8 input) lo hi ds).Follows input (placements? m input lo hi ds) := by
  cases m with
  | greedy =>
    have hlatest := latestScan_follows ds.reverse h
    rwa [List.reverse_reverse] at hlatest
  | lazy => exact earliestScan_follows ds h

theorem scan_of_tail_ne_nil (h : l.tail ≠ []) :
    l.scan m (utf8 input) =
      if bytes input < bytes l.head + bytes l.last ∨ ¬ l.head <+: input ∨ ¬ l.last <:+ input
      then ⟨[], none⟩
      else
        (placementsScan m (utf8 input) (bytes l.head) (bytes input - bytes l.last) l.delimiters).map
          (gaps (bytes l.head) (bytes input - bytes l.last) l.delimiters) := by
  have he : l.tail.isEmpty = false := by
    rw [List.isEmpty_eq_false_iff]
    exact h
  simp only [scan, he, Bool.false_eq_true, if_false, Bool.or_eq_true, decide_eq_true_eq,
    Bool.not_eq_true', ← Bool.not_eq_true, List.isPrefixOf_iff_prefix, List.isSuffixOf_iff_suffix,
    or_assoc, Text.length_utf8, Text.utf8_isPrefix_iff, Text.utf8_isSuffix_iff]

theorem scan_follows (l : Layout) (m : Capture) (input : Text) :
    (l.scan m (utf8 input)).Follows input (l.delimitedRanges? m input) := by
  by_cases htail : l.tail = []
  · rw [delimitedRanges?_of_tail_eq_nil htail, scan, htail]
    simp only [List.isEmpty_nil, if_true, Text.utf8_inj]
    exact Scan.follows_done _
  · rw [scan_of_tail_ne_nil htail, delimitedRanges?_of_tail_ne_nil htail]
    split
    · exact Scan.follows_done _
    · next hends =>
      obtain ⟨t, rfl⟩ := not_not.mp (mt ends_iff.mpr hends)
      have hcut := ByteRange.cuts_middle l.head t l.last
      rw [List.append_assoc, ← bytes_sub_last] at hcut
      exact (placementsScan_follows l.delimiters hcut).map _

/-! ## the ranges of a match -/

theorem le_start_of_mem_rangesFrom {n : Nat} {captured literals : List Text} {r : ByteRange}
    (h : r ∈ rangesFrom n captured literals) : n ≤ r.start := by
  induction captured generalizing n literals with
  | nil => cases h
  | cons c captured ih =>
    cases literals with
    | nil => cases h
    | cons t literals =>
      rcases List.mem_cons.mp h with rfl | h
      · exact Nat.le_refl n
      · have := ih h
        omega

theorem pairwise_rangesFrom (n : Nat) (captured literals : List Text) :
    (rangesFrom n captured literals).Pairwise (fun r r' => r.stop ≤ r'.start) := by
  induction captured generalizing n literals with
  | nil => exact List.Pairwise.nil
  | cons c captured ih =>
    cases literals with
    | nil => exact List.Pairwise.nil
    | cons t literals =>
      refine List.Pairwise.cons (fun r hr => ?_) (ih _ literals)
      exact Nat.le_trans (Nat.le_add_right _ _) (le_start_of_mem_rangesFrom hr)

theorem cuts_of_mem_rangesFrom {literals captured : List Text} {t : Text} {r : ByteRange} (p : Text)
    (h : Filled literals captured t) (hr : r ∈ rangesFrom (bytes p) captured literals) :
    r.Cuts (p ++ t) := by
  obtain ⟨i, hi, rfl⟩ := List.getElem_of_mem hr
  have hlen : i < captured.length := by rwa [length_rangesFrom _ h] at hi
  obtain ⟨a, b, hcut, hrange⟩ := exists_cut_of_getElem? p h (List.getElem?_eq_getElem hlen)
  rw [List.getElem?_eq_getElem hi] at hrange
  rw [Option.some.inj hrange, hcut]
  exact ByteRange.cuts_middle _ _ _

/-- What the scans slice out of an input, and what a match answers with, are ranges of it between
boundaries; the ranges of a match stand one behind the other, one for every slot. -/
theorem slicing_safe (l : Layout) (m : Capture) (input : Text) :
    (l.scan m (utf8 input)).answer? = l.delimitedRanges? m input ∧
    (∀ r ∈ (l.scan m (utf8 input)).windows, r.Cuts input) ∧
    ∀ s ranges, l.ranges? s m input = some ranges →
      ranges.length = l.slotCount ∧ ranges.Pairwise (fun r r' => r.stop ≤ r'.start) ∧
        ∀ r ∈ ranges, r.Cuts input ∧ (Text.slice? input r.start r.stop).isSome := by
  have hscan := scan_follows l m input
  refine ⟨hscan.answer_eq, hscan.cuts, fun s ranges hranges => ?_⟩
  obtain ⟨captured, hfirst, rfl⟩ := ranges?_eq_some_iff.mp hranges
  obtain ⟨t, rfl, hf⟩ := splits_iff_filled.mp hfirst.1
  refine ⟨?_, pairwise_rangesFrom _ _ _, fun r hr => ?_⟩
  · rw [ranges, length_rangesFrom _ hf, hfirst.1.length_eq]
  · have hcuts : r.Cuts (l.head ++ t) := cuts_of_mem_rangesFrom l.head hf hr
    exact ⟨hcuts, ByteRange.isSome_slice?_iff.mpr hcuts⟩

/-- a layout whose literals have characters of two bytes -/
def accented : Layout := ⟨"é ".toList, [(⟨0⟩, " ü ".toList), (⟨1⟩, [])]⟩

theorem slicing_safe_accented :
    (accented.scan .greedy (utf8 "é ção ü ñ".toList)).windows = [⟨3, 14⟩] ∧
    accented.ranges? .delimited .greedy "é ção ü ñ".toList = some [⟨3, 8⟩, ⟨12, 14⟩] ∧
    ∀ r ∈ [(⟨3, 14⟩ : ByteRange), ⟨3, 8⟩, ⟨12, 14⟩], r.Cuts "é ção ü ñ".toList := by
  have hwindows : (accented.scan .greedy (utf8 "é ção ü ñ".toList)).windows = [⟨3, 14⟩] := by
    decide +kernel
  have hranges : accented.ranges? .delimited .greedy "é ção ü ñ".toList
      = some [⟨3, 8⟩, ⟨12, 14⟩] := by decide +kernel
  obtain ⟨-, hsliced, hmatched⟩ := slicing_safe accented .greedy "é ção ü ñ".toList
  refine ⟨hwindows, hranges, List.forall_mem_cons.mpr ⟨?_, fun r hr => ?_⟩⟩
  · exact hsliced _ (hwindows ▸ List.mem_singleton_self _)
  · exact ((hmatched .delimited _ hranges).2.2 r hr).1

end Layout

end FormatInverse
