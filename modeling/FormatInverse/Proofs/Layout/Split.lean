import FormatInverse.Config.Basic
import FormatInverse.Layout.Basic
import FormatInverse.Proofs.Text.Occurrence
import Mathlib.Data.List.Forall2
import Mathlib.Data.List.Lex

/-!
# Splits of an input

A split of an input for a layout is one text for every slot, such that the filled layout is the
input (`Layout.Splits`).  `Filled` says the same of a list of literals, each behind its slot, and
follows the list.

An input can have many splits.  `Capture.Before` is the order in which a capture mode tries lengths,
and tuples of lengths from the left.  `placements` are the positions of the literals that stand
between the texts; splits are compared by them in `before_lengths`: whose delimiters all stand
further to the one side comes first in the order of that side.
-/

namespace FormatInverse

/-! ## the order of a capture mode -/

/-- `a` comes no later than `b`: the longest first, or the shortest first -/
def Capture.Before {α : Type} [LE α] (m : Capture) (a b : α) : Prop :=
  match m with
  | .greedy => b ≤ a
  | .lazy => a ≤ b

namespace Capture

variable {m : Capture}

theorem Before.refl {α : Type} [Preorder α] (a : α) : m.Before a a := by
  cases m <;> exact le_refl a

theorem Before.antisymm {α : Type} [PartialOrder α] {a b : α} (h : m.Before a b)
    (h' : m.Before b a) : a = b := by
  cases m
  · exact le_antisymm h' h
  · exact le_antisymm h h'

theorem Before.of_add {a b n : Nat} (h : m.Before (n + a) (n + b)) : m.Before a b := by
  cases m
  · exact Nat.le_of_add_le_add_left h
  · exact Nat.le_of_add_le_add_left h

theorem cons_le_cons_of_lt {a b : Nat} {as bs : List Nat} (h : a < b) : a :: as ≤ b :: bs :=
  le_of_lt (List.Lex.rel h)

theorem Before.cons_of_ne {a b : Nat} {as bs : List Nat} (h : m.Before a b) (hne : a ≠ b) :
    m.Before (a :: as) (b :: bs) := by
  cases m
  · exact cons_le_cons_of_lt (Nat.lt_of_le_of_ne h hne.symm)
  · exact cons_le_cons_of_lt (Nat.lt_of_le_of_ne h hne)

theorem Before.cons {as bs : List Nat} (a : Nat) (h : m.Before as bs) :
    m.Before (a :: as) (a :: bs) := by
  cases m
  · exact List.cons_le_cons a h
  · exact List.cons_le_cons a h

theorem head_le_of_cons_le {a b : Nat} {as bs : List Nat} (h : a :: as ≤ b :: bs) : a ≤ b := by
  by_contra hlt
  have hcons : b :: bs < a :: as := List.Lex.rel (Nat.lt_of_not_le hlt)
  exact absurd h (not_le_of_gt hcons)

theorem le_of_cons_le {a : Nat} {as bs : List Nat} (h : a :: as ≤ a :: bs) : as ≤ bs := by
  by_contra hlt
  have hcons : a :: bs < a :: as := List.Lex.cons (lt_of_not_ge hlt)
  exact absurd h (not_le_of_gt hcons)

theorem Before.head {a b : Nat} {as bs : List Nat} (h : m.Before (a :: as) (b :: bs)) :
    m.Before a b := by
  cases m
  · exact head_le_of_cons_le h
  · exact head_le_of_cons_le h

theorem Before.tail {a : Nat} {as bs : List Nat} (h : m.Before (a :: as) (a :: bs)) :
    m.Before as bs := by
  cases m
  · exact le_of_cons_le h
  · exact le_of_cons_le h

end Capture

/-! ## filled literals -/

/-- `t` is every text of `captured` with its literal behind it -/
inductive Filled : List Text → List Text → Text → Prop
  | nil : Filled [] [] []
  | cons {literals captured : List Text} {t : Text} (literal c : Text)
      (h : Filled literals captured t) :
      Filled (literal :: literals) (c :: captured) (c ++ literal ++ t)

namespace Filled

variable {literals captured captured' : List Text} {d last a b t : Text}

theorem iff_zipWith : Filled literals captured t ↔
    captured.length = literals.length ∧ (List.zipWith (· ++ ·) captured literals).flatten = t := by
  constructor
  · intro h
    induction h with
    | nil => exact ⟨rfl, rfl⟩
    | cons literal c _ ih =>
      refine ⟨congrArg Nat.succ ih.1, ?_⟩
      rw [List.zipWith_cons_cons, List.flatten_cons, ih.2]
  · rintro ⟨hlen, rfl⟩
    induction literals generalizing captured with
    | nil =>
      rw [List.length_eq_zero_iff.mp hlen]
      exact nil
    | cons literal literals ih =>
      cases captured with
      | nil => cases hlen
      | cons c captured => exact cons literal c (ih (Nat.succ.inj hlen))

theorem length_eq (h : Filled literals captured t) : captured.length = literals.length :=
  (iff_zipWith.mp h).1

theorem exists_cons (h : Filled (d :: literals) captured t) :
    ∃ c rest u, captured = c :: rest ∧ t = c ++ d ++ u ∧ Filled literals rest u := by
  cases h with
  | cons _ c h => exact ⟨c, _, _, rfl, rfl, h⟩

theorem singleton_iff : Filled [last] captured (t ++ last) ↔ captured = [t] := by
  constructor
  · intro h
    obtain ⟨c, rest, u, rfl, ht, hrest⟩ := h.exists_cons
    cases hrest
    rw [List.append_nil] at ht
    rw [List.append_cancel_right ht]
  · rintro rfl
    have h := cons last t nil
    rwa [List.append_nil] at h

theorem exists_append (h : Filled (literals ++ [last]) captured t) : ∃ u, t = u ++ last := by
  induction literals generalizing captured t with
  | nil =>
    obtain ⟨c, rest, u, -, rfl, hrest⟩ := h.exists_cons
    cases hrest
    exact ⟨c, List.append_nil _⟩
  | cons d literals ih =>
    obtain ⟨c, rest, u, -, rfl, hrest⟩ := h.exists_cons
    obtain ⟨v, rfl⟩ := ih hrest
    exact ⟨c ++ d ++ v, (List.append_assoc _ _ _).symm⟩

theorem exists_cons_append (h : Filled (d :: (literals ++ [last])) captured (t ++ last)) :
    ∃ c rest u, captured = c :: rest ∧ t = c ++ d ++ u ∧
      Filled (literals ++ [last]) rest (u ++ last) := by
  obtain ⟨c, rest, u, rfl, ht, hrest⟩ := h.exists_cons
  obtain ⟨v, rfl⟩ := hrest.exists_append
  rw [← List.append_assoc] at ht
  exact ⟨c, rest, v, rfl, List.append_cancel_right ht, hrest⟩

/-- Two neighbouring texts and the literal between them are a text in front of the literals left. -/
theorem merge (h : Filled (d :: literals) (a :: b :: captured) t) :
    Filled literals ((a ++ d ++ b) :: captured) t := by
  cases h with
  | cons _ _ h =>
    cases h with
    | @cons _ _ u literal _ h =>
      have e : a ++ d ++ (b ++ literal ++ u) = a ++ d ++ b ++ literal ++ u := by
        simp only [List.append_assoc]
      rw [e]
      exact cons literal (a ++ d ++ b) h

theorem unmerge (h : Filled literals ((a ++ d ++ b) :: captured) t) :
    Filled (d :: literals) (a :: b :: captured) t := by
  cases h with
  | @cons _ _ u literal _ h =>
    have e : a ++ d ++ b ++ literal ++ u = a ++ d ++ (b ++ literal ++ u) := by
      simp only [List.append_assoc]
    rw [e]
    exact cons d a (cons literal b h)

theorem prepend (h : Filled literals (b :: captured) t) (y : Text) :
    Filled literals ((y ++ b) :: captured) (y ++ t) := by
  cases h with
  | @cons _ _ u literal _ h =>
    have e : y ++ (b ++ literal ++ u) = y ++ b ++ literal ++ u := by
      simp only [List.append_assoc]
    rw [e]
    exact cons literal (y ++ b) h

/-- The lengths of the texts settle the texts. -/
theorem eq_of_bytes_eq (h : Filled literals captured t) (h' : Filled literals captured' t)
    (hb : captured.map Text.bytes = captured'.map Text.bytes) : captured = captured' := by
  induction h generalizing captured' with
  | nil =>
    cases h'
    rfl
  | cons literal c h ih =>
    obtain ⟨c', rest, u, rfl, ht, hrest⟩ := h'.exists_cons
    obtain ⟨hc, hbs⟩ := List.cons.inj hb
    obtain rfl := Text.eq_of_append_eq ht hc
    rw [List.append_cancel_left ht] at ih
    rw [ih hrest hbs]

end Filled

/-! ## positions of the literals -/

namespace Layout

/-- The byte positions of the literals behind `captured`, the first text of which is at `lo`. -/
def placements (lo : Nat) : List Text → List Text → List Nat
  | c :: captured, literal :: literals =>
    (lo + Text.bytes c) ::
      placements (lo + Text.bytes c + Text.bytes literal) captured literals
  | _, _ => []

theorem placements_append_cons (lo : Nat) (y b : Text) (captured literals : List Text) :
    placements lo ((y ++ b) :: captured) literals
      = placements (lo + Text.bytes y) (b :: captured) literals := by
  cases literals with
  | nil => rfl
  | cons d literals => rw [placements, placements, Text.bytes_append, ← Nat.add_assoc lo]

theorem placements_merge (lo : Nat) (a d b : Text) (captured literals : List Text) :
    placements lo (a :: b :: captured) (d :: literals)
      = (lo + Text.bytes a) :: placements lo ((a ++ d ++ b) :: captured) literals := by
  rw [placements, placements_append_cons, Text.bytes_append, Nat.add_assoc lo]

/-- The first text ends at the first of the literals between the texts, or at the end. -/
theorem headD_placements {ds captured : List Text} {c t last : Text} (lo : Nat)
    (h : Filled (ds ++ [last]) (c :: captured) (t ++ last)) :
    (placements lo (c :: captured) ds).headD (lo + Text.bytes t) = lo + Text.bytes c := by
  cases ds with
  | nil =>
    rw [(List.cons.inj (Filled.singleton_iff.mp h)).1]
    rfl
  | cons d ds => rfl

/-- Of two splits, the one whose delimiters all stand further to the side that is tried first has
the lengths that are tried first. -/
theorem before_lengths {m : Capture} {ds captured captured' : List Text} {t last : Text} (lo : Nat)
    (h : Filled (ds ++ [last]) captured t) (h' : Filled (ds ++ [last]) captured' t)
    (hp : List.Forall₂ m.Before (placements lo captured ds) (placements lo captured' ds)) :
    m.Before (captured.map Text.bytes) (captured'.map Text.bytes) := by
  induction ds generalizing lo captured captured' t with
  | nil =>
    obtain ⟨u, rfl⟩ := h.exists_append
    rw [Filled.singleton_iff.mp h, Filled.singleton_iff.mp h']
    exact Capture.Before.refl _
  | cons d ds ih =>
    obtain ⟨c, rest, u, rfl, rfl, hrest⟩ := h.exists_cons
    obtain ⟨c', rest', u', rfl, ht, hrest'⟩ := h'.exists_cons
    obtain ⟨hc, hps⟩ := List.forall₂_cons.mp hp
    by_cases hb : Text.bytes c = Text.bytes c'
    · obtain rfl := Text.eq_of_append_eq ht hb
      rw [← List.append_cancel_left ht] at hrest'
      exact (ih _ hrest hrest' hps).cons _
    · exact hc.of_add.cons_of_ne hb

end Layout

/-! ## the first filling -/

/-- `captured` fills the literals, and no filling of them has lengths that come before. -/
structure FirstFilled (m : Capture) (literals captured : List Text) (t : Text) : Prop where
  filled : Filled literals captured t
  before : ∀ other, Filled literals other t →
    m.Before (captured.map Text.bytes) (other.map Text.bytes)

namespace FirstFilled

variable {m : Capture} {literals captured captured' : List Text} {t : Text}

theorem eq (h : FirstFilled m literals captured t) (h' : FirstFilled m literals captured' t) :
    captured = captured' := by
  have hb := (h.before captured' h'.filled).antisymm (h'.before captured h.filled)
  exact h.filled.eq_of_bytes_eq h'.filled hb

theorem nil : FirstFilled m [] [] [] := by
  refine ⟨Filled.nil, fun other h => ?_⟩
  cases h
  exact Capture.Before.refl _

/-- A first text that comes before all others from which one can go on, and then the first filling
of the rest. -/
theorem cons {literal c : Text} (h : FirstFilled m literals captured t)
    (hc : ∀ c' t', c ++ literal ++ t = c' ++ literal ++ t' →
      (∃ other, Filled literals other t') → m.Before c.length c'.length) :
    FirstFilled m (literal :: literals) (c :: captured) (c ++ literal ++ t) := by
  refine ⟨Filled.cons literal c h.filled, fun other ho => ?_⟩
  obtain ⟨c', rest, t', rfl, ht, hrest⟩ := ho.exists_cons
  have hp : c <+: c ++ literal ++ t := Text.isPrefix_of_eq_append rfl
  have hp' : c' <+: c ++ literal ++ t := Text.isPrefix_of_eq_append ht
  have hlen : m.Before c.length c'.length := hc c' t' ht ⟨rest, hrest⟩
  by_cases hb : Text.bytes c = Text.bytes c'
  · obtain rfl := Text.eq_of_append_eq ht hb
    rw [← List.append_cancel_left ht] at hrest
    exact (h.before rest hrest).cons _
  · have hbytes : m.Before (Text.bytes c) (Text.bytes c') := by
      cases m
      · exact (Text.bytes_le_iff_length_le hp' hp).mpr hlen
      · exact (Text.bytes_le_iff_length_le hp hp').mpr hlen
    exact hbytes.cons_of_ne hb

/-- Behind the first text of a first filling stands a first filling. -/
theorem tail {literal c : Text} (h : FirstFilled m (literal :: literals) (c :: captured) t) :
    ∃ u, FirstFilled m literals captured u := by
  cases h.filled with
  | @cons _ _ u _ _ hf =>
    refine ⟨u, hf, fun other ho => ?_⟩
    have hbefore := h.before (c :: other) (Filled.cons literal c ho)
    rw [List.map_cons, List.map_cons] at hbefore
    exact hbefore.tail

end FirstFilled

/-! ## splits of a layout -/

namespace Layout

/-- `captured` is one text for every slot, and makes up the input. -/
structure Splits (l : Layout) (input : Text) (captured : List Text) : Prop where
  length_eq : captured.length = l.slotCount
  fill_eq : l.fill captured = input

theorem splits_iff_filled {l : Layout} {input : Text} {captured : List Text} :
    l.Splits input captured ↔
      ∃ t, input = l.head ++ t ∧ Filled (l.tail.map (·.2)) captured t := by
  constructor
  · rintro ⟨hlen, rfl⟩
    exact ⟨_, rfl, Filled.iff_zipWith.mpr ⟨by rw [hlen, slotCount, List.length_map], rfl⟩⟩
  · rintro ⟨t, rfl, h⟩
    obtain ⟨hlen, rfl⟩ := Filled.iff_zipWith.mp h
    exact ⟨by rw [hlen, slotCount, List.length_map], rfl⟩

theorem Splits.length_slots {l : Layout} {input : Text} {captured : List Text}
    (h : l.Splits input captured) : l.slots.length = captured.length := by
  rw [slots_length, h.length_eq]

/-- The texts of a split are settled by their lengths. -/
theorem Splits.eq_of_bytes_eq {l : Layout} {input : Text} {captured captured' : List Text}
    (h : l.Splits input captured) (h' : l.Splits input captured')
    (hb : captured.map Text.bytes = captured'.map Text.bytes) : captured = captured' := by
  obtain ⟨t, rfl, hf⟩ := splits_iff_filled.mp h
  obtain ⟨t', ht, hf'⟩ := splits_iff_filled.mp h'
  rw [← List.append_cancel_left ht] at hf'
  exact hf.eq_of_bytes_eq hf' hb

/-- the byte positions of the delimiters in a split -/
def placed (l : Layout) (captured : List Text) : List Nat :=
  placements (Text.bytes l.head) captured l.delimiters

/-- `captured` is the split whose lengths come first. -/
def First (l : Layout) (m : Capture) (input : Text) (captured : List Text) : Prop :=
  l.Splits input captured ∧
    ∀ other, l.Splits input other → m.Before (captured.map Text.bytes) (other.map Text.bytes)

theorem first_iff_firstFilled {l : Layout} {m : Capture} {input : Text} {captured : List Text} :
    l.First m input captured ↔
      ∃ t, input = l.head ++ t ∧ FirstFilled m (l.tail.map (·.2)) captured t := by
  constructor
  · rintro ⟨hs, hbefore⟩
    obtain ⟨t, rfl, hf⟩ := splits_iff_filled.mp hs
    exact ⟨t, rfl, hf, fun other ho => hbefore other (splits_iff_filled.mpr ⟨t, rfl, ho⟩)⟩
  · rintro ⟨t, rfl, hf⟩
    refine ⟨splits_iff_filled.mpr ⟨t, rfl, hf.filled⟩, fun other ho => ?_⟩
    obtain ⟨t', ht, ho'⟩ := splits_iff_filled.mp ho
    rw [← List.append_cancel_left ht] at ho'
    exact hf.before other ho'

theorem First.eq {l : Layout} {m : Capture} {input : Text} {captured captured' : List Text}
    (h : l.First m input captured) (h' : l.First m input captured') : captured = captured' :=
  h.1.eq_of_bytes_eq h'.1 ((h.2 captured' h'.1).antisymm (h'.2 captured h.1))

end Layout

end FormatInverse
