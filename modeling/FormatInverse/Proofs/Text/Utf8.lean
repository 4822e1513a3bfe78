import FormatInverse.Proofs.Text.Occurrence
import Mathlib.Order.RelClasses

/-!
# The UTF-8 form of a text

`utf8` is the bytes of a text, `Boundary` says of a byte position that a character begins or the
text ends there.  UTF-8 synchronises itself: where the bytes of a nonempty text occur among those of
another, a character begins, since the first byte of a character is never one of its later bytes.
So the text itself occurs there (`exists_append_of_utf8`), and searching characters is searching
bytes.

* `boundary_iff`   the boundaries are the ends of the parts in front;
* `exists_at_iff`   at every boundary but the last a character begins;
* `firstAt?_utf8`, `lastAt?_utf8`   `find?` and `rfind?` are the searches on bytes.
-/

namespace FormatInverse.Text

/-- the bytes of the UTF-8 form -/
def utf8 (t : Text) : List UInt8 := t.flatMap String.utf8EncodeChar

@[simp] theorem utf8_nil : utf8 [] = [] := rfl

@[simp] theorem utf8_cons (c : Char) (t : Text) :
    utf8 (c :: t) = String.utf8EncodeChar c ++ utf8 t := rfl

@[simp] theorem utf8_append (s t : Text) : utf8 (s ++ t) = utf8 s ++ utf8 t :=
  List.flatMap_append

@[simp] theorem length_utf8 (t : Text) : (utf8 t).length = bytes t := by
  induction t with
  | nil => rfl
  | cons c t ih => rw [utf8_cons, List.length_append, String.length_utf8EncodeChar, ih, bytes_cons]

/-! ## boundaries -/

/-- A character of the text begins at byte `n`, or the text ends there. -/
def Boundary (t : Text) (n : Nat) : Prop :=
  n = (utf8 t).length ∨ ∃ b ∈ (utf8 t)[n]?, b.IsUTF8FirstByte

instance (t : Text) (n : Nat) : Decidable (Boundary t n) :=
  inferInstanceAs (Decidable (_ ∨ ∃ b ∈ (utf8 t)[n]?, b.IsUTF8FirstByte))

theorem exists_first_byte (c : Char) (rest : List UInt8) :
    ∃ b ∈ (String.utf8EncodeChar c ++ rest)[0]?, b.IsUTF8FirstByte := by
  have hpos : 0 < (String.utf8EncodeChar c).length := by
    rw [String.length_utf8EncodeChar]
    exact Char.utf8Size_pos c
  refine ⟨(String.utf8EncodeChar c)[0], ?_, UInt8.isUTF8FirstByte_getElem_utf8EncodeChar.mpr rfl⟩
  rw [List.getElem?_append_left hpos, List.getElem?_eq_getElem hpos, Option.mem_def]

/-- Within a character there is no boundary but in front of it. -/
theorem boundary_cons {c : Char} {t : Text} {n : Nat} (h : Boundary (c :: t) n) :
    n = 0 ∨ ∃ k, n = c.utf8Size + k ∧ Boundary t k := by
  have hc : (String.utf8EncodeChar c).length = c.utf8Size := String.length_utf8EncodeChar c
  have hlen : (utf8 (c :: t)).length = c.utf8Size + (utf8 t).length := by
    rw [utf8_cons, List.length_append, hc]
  by_cases hn : n < c.utf8Size
  · left
    rcases h with h | ⟨b, hb, hfirst⟩
    · omega
    · rw [utf8_cons, List.getElem?_append_left (by omega),
        List.getElem?_eq_getElem (by omega)] at hb
      obtain rfl := Option.some.inj hb
      exact UInt8.isUTF8FirstByte_getElem_utf8EncodeChar.mp hfirst
  · right
    refine ⟨n - c.utf8Size, by omega, ?_⟩
    rcases h with h | ⟨b, hb, hfirst⟩
    · exact .inl (by omega)
    · rw [utf8_cons, List.getElem?_append_right (by omega), hc] at hb
      exact .inr ⟨b, hb, hfirst⟩

theorem boundary_iff {t : Text} {n : Nat} : Boundary t n ↔ ∃ a b, t = a ++ b ∧ n = bytes a := by
  constructor
  · intro h
    induction t generalizing n with
    | nil =>
      rcases h with h | ⟨b, hb, -⟩
      · exact ⟨[], [], rfl, h⟩
      · cases hb
    | cons c t ih =>
      rcases boundary_cons h with rfl | ⟨k, rfl, hk⟩
      · exact ⟨[], c :: t, rfl, rfl⟩
      · obtain ⟨a, b, rfl, rfl⟩ := ih hk
        exact ⟨c :: a, b, rfl, rfl⟩
  · rintro ⟨a, b, rfl, rfl⟩
    cases b with
    | nil => exact .inl (by rw [List.append_nil, length_utf8])
    | cons c b =>
      right
      rw [utf8_append, List.getElem?_append_right (Nat.le_of_eq (length_utf8 a)), length_utf8,
        Nat.sub_self, utf8_cons]
      exact exists_first_byte c (utf8 b)

example : (List.range 6).filter (Boundary "aéü".toList ·) = [0, 1, 3, 5] := by decide

/-- The character `c` begins at byte `n`. -/
def At (t : Text) (n : Nat) (c : Char) : Prop := ∃ a b, t = a ++ c :: b ∧ n = bytes a

/-- Characters begin at the boundaries, but for the one at the end. -/
theorem exists_at_iff {t : Text} {n : Nat} : (∃ c, At t n c) ↔ Boundary t n ∧ n < bytes t := by
  constructor
  · rintro ⟨c, a, b, rfl, rfl⟩
    have hc := Char.utf8Size_pos c
    refine ⟨boundary_iff.mpr ⟨a, c :: b, rfl, rfl⟩, ?_⟩
    rw [bytes_append, bytes_cons]
    omega
  · rintro ⟨hn, hlt⟩
    obtain ⟨a, b, rfl, rfl⟩ := boundary_iff.mp hn
    cases b with
    | nil =>
      rw [List.append_nil] at hlt
      exact absurd hlt (Nat.lt_irrefl _)
    | cons c b => exact ⟨c, a, b, rfl, rfl⟩

theorem At.exists_cons {a b : Text} {c : Char} (h : At (a ++ b) (bytes a) c) :
    ∃ rest, b = c :: rest := by
  obtain ⟨a', rest, ht, ha⟩ := h
  obtain rfl := eq_of_prefix_of_bytes_eq ⟨b, rfl⟩ ⟨c :: rest, ht.symm⟩ ha
  exact ⟨rest, List.append_cancel_left ht⟩

theorem eq_nil_or_at {t a b : Text} (h : t = a ++ b) : b = [] ∨ ∃ c, t.At (bytes a) c := by
  cases b with
  | nil => exact Or.inl rfl
  | cons c b => exact Or.inr ⟨c, a, b, h, rfl⟩

/-! ## slices -/

section
variable {t u : Text} {n lo hi : Nat}

theorem exists_of_dropBytes? (h : dropBytes? t n = some u) : ∃ a, t = a ++ u ∧ n = bytes a := by
  induction t generalizing n with
  | nil =>
    cases n with
    | zero => exact ⟨[], Option.some.inj h, rfl⟩
    | succ n => cases h
  | cons c t ih =>
    cases n with
    | zero => exact ⟨[], Option.some.inj h, rfl⟩
    | succ n =>
      rw [dropBytes?, Option.ite_none_right_eq_some] at h
      obtain ⟨a, rfl, ha⟩ := ih h.2
      exact ⟨c :: a, rfl, by rw [bytes_cons]; omega⟩

theorem exists_of_takeBytes? (h : takeBytes? t n = some u) : ∃ b, t = u ++ b ∧ n = bytes u := by
  induction t generalizing n u with
  | nil =>
    cases n with
    | zero =>
      obtain rfl := Option.some.inj h
      exact ⟨[], rfl, rfl⟩
    | succ n => cases h
  | cons c t ih =>
    cases n with
    | zero =>
      obtain rfl := Option.some.inj h
      exact ⟨c :: t, rfl, rfl⟩
    | succ n =>
      rw [takeBytes?, Option.ite_none_right_eq_some, Option.map_eq_some_iff] at h
      obtain ⟨hle, v, hv, rfl⟩ := h
      obtain ⟨b, rfl, hb⟩ := ih hv
      exact ⟨b, rfl, by rw [bytes_cons]; omega⟩

theorem slice?_eq_some_iff {s : Text} :
    slice? t lo hi = some s ↔ ∃ a b, t = a ++ s ++ b ∧ lo = bytes a ∧ hi = bytes a + bytes s := by
  constructor
  · intro h
    rw [slice?, Option.ite_none_right_eq_some, Option.bind_eq_some_iff] at h
    obtain ⟨hle, u, hu, hs⟩ := h
    obtain ⟨a, rfl, ha⟩ := exists_of_dropBytes? hu
    obtain ⟨b, rfl, hb⟩ := exists_of_takeBytes? hs
    exact ⟨a, b, (List.append_assoc a s b).symm, ha, by omega⟩
  · rintro ⟨a, b, rfl, rfl, rfl⟩
    exact slice?_middle a s b

end

/-! ## occurrences among the bytes -/

theorem isPrefix_of_utf8 {p t : Text} (h : utf8 p <+: utf8 t) : p <+: t := by
  obtain ⟨v, hv⟩ := h
  apply List.isPrefix_of_utf8Encode_append_eq_utf8Encode v.toByteArray
  show (utf8 p).toByteArray ++ v.toByteArray = (utf8 t).toByteArray
  rw [← hv, List.toByteArray_append]

/-- Where the bytes of a nonempty text occur, the text occurs. -/
theorem exists_append_of_utf8 {p t : Text} {u v : List UInt8} (hp : p ≠ [])
    (h : utf8 t = u ++ utf8 p ++ v) : ∃ a b, t = a ++ p ++ b ∧ utf8 a = u := by
  have hboundary : Boundary t u.length := by
    obtain ⟨c, p', rfl⟩ := List.exists_cons_of_ne_nil hp
    right
    rw [h, List.append_assoc, List.getElem?_append_right (Nat.le_refl _), Nat.sub_self, utf8_cons,
      List.append_assoc]
    exact exists_first_byte c (utf8 p' ++ v)
  obtain ⟨a, b, rfl, ha⟩ := boundary_iff.mp hboundary
  rw [utf8_append, List.append_assoc] at h
  obtain ⟨hu, hb⟩ := List.append_inj h (by rw [length_utf8, ha])
  obtain ⟨b', rfl⟩ := isPrefix_of_utf8 ⟨v, hb.symm⟩
  exact ⟨a, b', (List.append_assoc a p b').symm, hu⟩

/-! ## searching the bytes -/

/-- The bytes `p` stand in `bs` from byte `k` on. -/
def occursAt (p bs : List UInt8) (k : Nat) : Bool := p.isPrefixOf (bs.drop k)

/-- the first position at which the bytes `p` stand in `bs` -/
def firstAt? (p bs : List UInt8) : Option Nat :=
  (List.range (bs.length + 1)).find? (occursAt p bs)

/-- the last position at which the bytes `p` stand in `bs` -/
def lastAt? (p bs : List UInt8) : Option Nat :=
  (List.range (bs.length + 1)).reverse.find? (occursAt p bs)

theorem occursAt_utf8 (a p b : Text) :
    occursAt (utf8 p) (utf8 (a ++ p ++ b)) (bytes a) = true := by
  rw [occursAt, List.isPrefixOf_iff_prefix, List.append_assoc, utf8_append, ← length_utf8 a,
    List.drop_left, utf8_append]
  exact List.prefix_append _ _

section
variable {p t : Text} {k : Nat}

theorem exists_append_of_occursAt (hp : p ≠ []) (hk : k ≤ bytes t)
    (h : occursAt (utf8 p) (utf8 t) k = true) : ∃ a b, t = a ++ p ++ b ∧ bytes a = k := by
  rw [occursAt, List.isPrefixOf_iff_prefix] at h
  obtain ⟨v, hv⟩ := h
  have hcut : utf8 t = (utf8 t).take k ++ utf8 p ++ v := by
    rw [List.append_assoc, hv, List.take_append_drop]
  obtain ⟨a, b, ht, ha⟩ := exists_append_of_utf8 hp hcut
  refine ⟨a, b, ht, ?_⟩
  rw [← length_utf8, ha, List.length_take, length_utf8, Nat.min_eq_left hk]

/-- The first position where the bytes stand is no earlier than one where the text stands. -/
theorem exists_le_of_occursAt (hk : k ≤ bytes t) (h : occursAt (utf8 p) (utf8 t) k = true) :
    ∃ a b, t = a ++ p ++ b ∧ bytes a ≤ k := by
  by_cases hp : p = []
  · -- the empty text may stand within a character, but then it also stands in front of the text
    exact ⟨[], t, by rw [hp]; rfl, Nat.zero_le k⟩
  · obtain ⟨a, b, ht, ha⟩ := exists_append_of_occursAt hp hk h
    exact ⟨a, b, ht, Nat.le_of_eq ha⟩

theorem exists_ge_of_occursAt (hk : k ≤ bytes t) (h : occursAt (utf8 p) (utf8 t) k = true) :
    ∃ a b, t = a ++ p ++ b ∧ k ≤ bytes a := by
  by_cases hp : p = []
  · exact ⟨t, [], by rw [hp, List.append_nil, List.append_nil], hk⟩
  · obtain ⟨a, b, ht, ha⟩ := exists_append_of_occursAt hp hk h
    exact ⟨a, b, ht, Nat.le_of_eq ha.symm⟩

theorem find?_eq_some_of_pairwise {R : Nat → Nat → Prop} [Std.Antisymm R] {ks : List Nat}
    {q : Nat → Bool} {n : Nat} (hks : ks.Pairwise R) (hn : n ∈ ks) (hq : q n = true)
    (h : ∀ k ∈ ks, q k = true → R n k) : ks.find? q = some n := by
  induction ks with
  | nil => cases hn
  | cons k ks ih =>
    obtain ⟨hk, hks⟩ := List.pairwise_cons.mp hks
    rcases List.mem_cons.mp hn with rfl | hn
    · exact List.find?_cons_of_pos hq
    · by_cases hqk : q k = true
      · rw [Std.Antisymm.antisymm n k (h k List.mem_cons_self hqk) (hk n hn)]
        exact List.find?_cons_of_pos hqk
      · rw [List.find?_cons_of_neg hqk]
        exact ih hks hn fun j hj => h j (List.mem_cons_of_mem k hj)

/-- Trying the positions `ks` on the bytes finds what a search of the characters finds, if both look
for the occurrence that is first in the same order `R`. -/
theorem find?_occursAt_utf8 {R : Nat → Nat → Prop} [Std.Antisymm R] [IsTrans Nat R]
    {ks : List Nat} {found : Option Nat} (hks : ks.Pairwise R)
    (hmem : ∀ {k}, k ∈ ks ↔ k ≤ bytes t)
    (hocc : ∀ {k}, k ≤ bytes t → occursAt (utf8 p) (utf8 t) k = true →
      ∃ a b, t = a ++ p ++ b ∧ R (bytes a) k)
    (hfound : ∀ {n}, found = some n → ∃ a b, t = a ++ p ++ b ∧ n = bytes a)
    (hfirst : ∀ {a b}, t = a ++ p ++ b → ∃ n, found = some n ∧ R n (bytes a)) :
    ks.find? (occursAt (utf8 p) (utf8 t)) = found := by
  cases found with
  | none =>
    refine List.find?_eq_none.mpr fun k hk h => ?_
    obtain ⟨a, b, ht, -⟩ := hocc (hmem.mp hk) h
    obtain ⟨n, hn, -⟩ := hfirst ht
    cases hn
  | some n =>
    obtain ⟨a, b, ht, hn⟩ := hfound rfl
    refine find?_eq_some_of_pairwise hks (hmem.mpr ?_) ?_ fun k hk h => ?_
    · rw [hn, ht, List.append_assoc, bytes_append]
      exact Nat.le_add_right _ _
    · rw [hn, ht]
      exact occursAt_utf8 a p b
    · obtain ⟨a', b', ht', hle⟩ := hocc (hmem.mp hk) h
      obtain ⟨n', hn', hle'⟩ := hfirst ht'
      rw [← Option.some.inj hn'] at hle'
      exact IsTrans.trans _ _ _ hle' hle

end

theorem firstAt?_utf8 (p t : Text) : firstAt? (utf8 p) (utf8 t) = find? p t := by
  refine find?_occursAt_utf8 (R := (· ≤ ·)) List.pairwise_le_range ?_ exists_le_of_occursAt
    eq_append_of_find? ?_
  · intro k
    rw [List.mem_range, length_utf8, Nat.lt_succ_iff]
  · rintro a b rfl
    obtain ⟨a', -, -, hfind, hle⟩ := find?_append a p b
    exact ⟨bytes a', hfind, hle⟩

theorem lastAt?_utf8 (p t : Text) : lastAt? (utf8 p) (utf8 t) = rfind? p t := by
  refine find?_occursAt_utf8 (R := (· ≥ ·)) (List.pairwise_reverse.mpr List.pairwise_le_range) ?_
    exists_ge_of_occursAt eq_append_of_rfind? ?_
  · intro k
    rw [List.mem_reverse, List.mem_range, length_utf8, Nat.lt_succ_iff]
  · rintro a b rfl
    obtain ⟨a', -, -, hfind, hle⟩ := rfind?_append a p b
    exact ⟨bytes a', hfind, hle⟩

/-! ## both ends -/

theorem utf8_isPrefix_iff {p t : Text} : utf8 p <+: utf8 t ↔ p <+: t := by
  refine ⟨isPrefix_of_utf8, ?_⟩
  rintro ⟨b, rfl⟩
  rw [utf8_append]
  exact List.prefix_append _ _

theorem utf8_isSuffix_iff {p t : Text} : utf8 p <:+ utf8 t ↔ p <:+ t := by
  constructor
  · rintro ⟨u, hu⟩
    by_cases hp : p = []
    · rw [hp]
      exact List.nil_suffix
    · obtain ⟨a, b, rfl, rfl⟩ := exists_append_of_utf8 (v := []) hp (by rw [List.append_nil, hu])
      have hlen := congrArg List.length hu
      simp only [List.length_append, length_utf8, bytes_append] at hlen
      rw [bytes_eq_zero.mp (show bytes b = 0 by omega), List.append_nil]
      exact List.suffix_append a p
  · rintro ⟨a, rfl⟩
    rw [utf8_append]
    exact List.suffix_append _ _

theorem utf8_inj {s t : Text} : utf8 s = utf8 t ↔ s = t := by
  constructor
  · intro h
    have hs : s <+: t := isPrefix_of_utf8 (h ▸ List.prefix_rfl)
    have ht : t <+: s := isPrefix_of_utf8 (h ▸ List.prefix_rfl)
    exact hs.eq_of_length_le ht.length_le
  · rintro rfl
    rfl

end FormatInverse.Text
