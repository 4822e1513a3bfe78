import FormatInverse.Text.Basic

/-!
# Occurrences of one text in another

A part at the front of a text is settled by its number of bytes (`eq_of_prefix_of_bytes_eq`), and so
is a part at its end.  `find?` and `rfind?` answer with an occurrence, `find?` with none that is
later than a given one (`find?_append`), `rfind?` with none that is earlier (`rfind?_append`).
-/

namespace FormatInverse.Text

/-! ## parts of one text -/

theorem bytes_le_of_isPrefix {s t : Text} (h : s <+: t) : bytes s ≤ bytes t := by
  obtain ⟨r, rfl⟩ := h
  rw [bytes_append]
  omega

theorem prefix_of_bytes_le {s s' t : Text} (h : s <+: t) (h' : s' <+: t)
    (hb : bytes s ≤ bytes s') : s <+: s' := by
  rcases List.prefix_or_prefix_of_prefix h h' with hs | ⟨r, rfl⟩
  · exact hs
  · have hr : bytes r = 0 := by
      rw [bytes_append] at hb
      omega
    exact ⟨[], by rw [bytes_eq_zero.mp hr, List.append_nil, List.append_nil]⟩

theorem eq_of_prefix_of_bytes_eq {s s' t : Text} (h : s <+: t) (h' : s' <+: t)
    (hb : bytes s = bytes s') : s = s' := by
  have hs : s <+: s' := prefix_of_bytes_le h h' (by omega)
  have hs' : s' <+: s := prefix_of_bytes_le h' h (by omega)
  exact hs.eq_of_length_le hs'.length_le

theorem isPrefix_of_eq_append {t a b c : Text} (h : t = a ++ b ++ c) : a <+: t :=
  ⟨b ++ c, by rw [h, List.append_assoc]⟩

/-- Two cuts of one text whose first parts have the same number of bytes have the same first
part. -/
theorem eq_of_append_eq {a a' b b' c c' : Text} (h : a ++ b ++ c = a' ++ b' ++ c')
    (hb : bytes a = bytes a') : a = a' :=
  eq_of_prefix_of_bytes_eq (isPrefix_of_eq_append rfl) (isPrefix_of_eq_append h) hb

theorem bytes_le_iff_length_le {s s' t : Text} (h : s <+: t) (h' : s' <+: t) :
    bytes s ≤ bytes s' ↔ s.length ≤ s'.length := by
  constructor
  · intro hb
    exact (prefix_of_bytes_le h h' hb).length_le
  · intro hl
    exact bytes_le_of_isPrefix (List.prefix_of_prefix_length_le h h' hl)

theorem suffix_of_bytes_le {s s' t : Text} (h : s <:+ t) (h' : s' <:+ t)
    (hb : bytes s ≤ bytes s') : s <:+ s' := by
  rcases List.suffix_or_suffix_of_suffix h h' with hs | ⟨r, rfl⟩
  · exact hs
  · have hr : bytes r = 0 := by
      rw [bytes_append] at hb
      omega
    exact ⟨[], by rw [bytes_eq_zero.mp hr, List.nil_append, List.nil_append]⟩

/-! ## the first occurrence -/

theorem eq_append_of_find? {p t : Text} {k : Nat} (h : find? p t = some k) :
    ∃ a b, t = a ++ p ++ b ∧ k = bytes a := by
  induction t generalizing k with
  | nil =>
    simp only [find?, List.isEmpty_iff, Option.ite_none_right_eq_some, Option.some.injEq] at h
    exact ⟨[], [], by rw [h.1]; rfl, by rw [← h.2]; rfl⟩
  | cons c t ih =>
    rw [find?] at h
    split at h
    · next hp =>
      obtain ⟨b, hb⟩ := List.isPrefixOf_iff_prefix.mp hp
      exact ⟨[], b, hb.symm, (Option.some.inj h).symm⟩
    · obtain ⟨j, hj, rfl⟩ := Option.map_eq_some_iff.mp h
      obtain ⟨a, b, rfl, rfl⟩ := ih hj
      exact ⟨c :: a, b, rfl, rfl⟩

theorem find?_self_append (p b : Text) : find? p (p ++ b) = some 0 := by
  cases h : p ++ b with
  | nil =>
    have hp : p = [] := (List.append_eq_nil_iff.mp h).1
    rw [hp]
    rfl
  | cons c t =>
    have hp : p.isPrefixOf (c :: t) = true := by
      rw [← h]
      exact List.isPrefixOf_iff_prefix.mpr (List.prefix_append p b)
    rw [find?, if_pos hp]

/-- An occurrence is found, and none before the one that is found. -/
theorem find?_append (a p b : Text) :
    ∃ a' b', a ++ p ++ b = a' ++ p ++ b' ∧ find? p (a ++ p ++ b) = some (bytes a') ∧
      bytes a' ≤ bytes a := by
  induction a with
  | nil => exact ⟨[], b, rfl, find?_self_append p b, Nat.le_refl _⟩
  | cons c a ih =>
    obtain ⟨a', b', heq, hfind, hle⟩ := ih
    by_cases hp : p.isPrefixOf (c :: (a ++ p ++ b)) = true
    · obtain ⟨r, hr⟩ := List.isPrefixOf_iff_prefix.mp hp
      refine ⟨[], r, hr.symm, ?_, Nat.zero_le _⟩
      show find? p (c :: (a ++ p ++ b)) = some 0
      rw [find?, if_pos hp]
    · refine ⟨c :: a', b', ?_, ?_, ?_⟩
      · show c :: (a ++ p ++ b) = c :: (a' ++ p ++ b')
        rw [heq]
      · show find? p (c :: (a ++ p ++ b)) = some (c.utf8Size + bytes a')
        rw [find?, if_neg hp, hfind]
        rfl
      · rw [bytes_cons, bytes_cons]
        omega

/-! ## the last occurrence -/

theorem eq_append_of_rfind? {p t : Text} {k : Nat} (h : rfind? p t = some k) :
    ∃ a b, t = a ++ p ++ b ∧ k = bytes a := by
  induction t generalizing k with
  | nil =>
    simp only [rfind?, List.isEmpty_iff, Option.ite_none_right_eq_some, Option.some.injEq] at h
    exact ⟨[], [], by rw [h.1]; rfl, by rw [← h.2]; rfl⟩
  | cons c t ih =>
    rw [rfind?] at h
    split at h
    · next j hj =>
      obtain ⟨a, b, rfl, rfl⟩ := ih hj
      exact ⟨c :: a, b, rfl, (Option.some.inj h).symm⟩
    · split at h
      · next hp =>
        obtain ⟨b, hb⟩ := List.isPrefixOf_iff_prefix.mp hp
        exact ⟨[], b, hb.symm, (Option.some.inj h).symm⟩
      · cases h

theorem rfind?_self_append (p b : Text) : ∃ k, rfind? p (p ++ b) = some k := by
  cases h : p ++ b with
  | nil =>
    have hp : p = [] := (List.append_eq_nil_iff.mp h).1
    exact ⟨0, by rw [hp]; rfl⟩
  | cons c t =>
    have hp : p.isPrefixOf (c :: t) = true := by
      rw [← h]
      exact List.isPrefixOf_iff_prefix.mpr (List.prefix_append p b)
    rw [rfind?]
    split
    · exact ⟨_, rfl⟩
    · exact ⟨0, if_pos hp⟩

/-- An occurrence is found, and none after the one that is found. -/
theorem rfind?_append (a p b : Text) :
    ∃ a' b', a ++ p ++ b = a' ++ p ++ b' ∧ rfind? p (a ++ p ++ b) = some (bytes a') ∧
      bytes a ≤ bytes a' := by
  induction a with
  | nil =>
    obtain ⟨k, hk⟩ := rfind?_self_append p b
    obtain ⟨a', b', heq, rfl⟩ := eq_append_of_rfind? hk
    exact ⟨a', b', heq, hk, Nat.zero_le _⟩
  | cons c a ih =>
    obtain ⟨a', b', heq, hfind, hle⟩ := ih
    refine ⟨c :: a', b', ?_, ?_, ?_⟩
    · show c :: (a ++ p ++ b) = c :: (a' ++ p ++ b')
      rw [heq]
    · show rfind? p (c :: (a ++ p ++ b)) = some (c.utf8Size + bytes a')
      rw [rfind?, hfind]
    · rw [bytes_cons, bytes_cons]
      omega

end FormatInverse.Text
