import FormatInverse.Layout.Pattern

/-!
# The text of a pattern, read back

The literals of a layout and its capture mode can be told from the text of its pattern, whatever the
literals hold.  Literals have no fixed length, so this needs that the end of an escaped literal is
seen: it ends where no escaped character stands (`EndsLiteral`).  Such places are the group of a slot,
whose parenthesis has no backslash before it, and the end of the pattern, where the character behind
the backslash is none that is escaped.

* `escape_append_inj`       an escaped literal ends in one place only;
* `sourceFrom_inj`          what stands behind the first literal says the other literals and the mode;
* `source_eq_source_iff`    two patterns have one text just when they are for the same literals, and
                            for the same mode if there is a slot.
-/

namespace FormatInverse.Layout

/-! ## escaped characters -/

theorem escape_nil : escape [] = [] := rfl

theorem escape_cons (c : Char) (t : Text) : escape (c :: t) = escape [c] ++ escape t := by
  unfold escape
  rw [List.flatMap_cons, List.flatMap_singleton]

theorem escape_of_meta {c : Char} (hc : isMeta c = true) : escape [c] = ['\\', c] := by
  unfold escape
  rw [List.flatMap_singleton, if_pos hc]

theorem escape_of_plain {c : Char} (hc : isMeta c = false) : escape [c] = [c] := by
  unfold escape
  rw [List.flatMap_singleton, hc]
  rfl

/-- A plain character is not the backslash of an escaped one. -/
theorem plain_ne_backslash {c : Char} (hc : isMeta c = false) : c ≠ '\\' := by
  intro h
  rw [h] at hc
  cases hc

theorem escape_singleton_append_inj {c d : Char} {u v : Text}
    (h : escape [c] ++ u = escape [d] ++ v) : c = d ∧ u = v := by
  cases hc : isMeta c with
  | true =>
    rw [escape_of_meta hc] at h
    cases hd : isMeta d with
    | true =>
      rw [escape_of_meta hd] at h
      exact List.cons.inj (List.cons.inj h).2
    | false =>
      rw [escape_of_plain hd] at h
      exact absurd (List.cons.inj h).1.symm (plain_ne_backslash hd)
  | false =>
    rw [escape_of_plain hc] at h
    cases hd : isMeta d with
    | true =>
      rw [escape_of_meta hd] at h
      exact absurd (List.cons.inj h).1 (plain_ne_backslash hc)
    | false =>
      rw [escape_of_plain hd] at h
      exact List.cons.inj h

/-! ## where an escaped literal ends -/

/-- No escaped character stands at the front of `u`, so a literal that comes before `u` ends there. -/
def EndsLiteral (u : Text) : Prop := ∀ (c : Char) (v : Text), u ≠ escape [c] ++ v

/-- A character with a meaning has a backslash before it in a literal. -/
theorem endsLiteral_of_meta {c : Char} (hc : isMeta c = true) (hne : c ≠ '\\') (u : Text) :
    EndsLiteral (c :: u) := by
  intro d v h
  cases hd : isMeta d with
  | true =>
    rw [escape_of_meta hd] at h
    exact hne (List.cons.inj h).1
  | false =>
    rw [escape_of_plain hd] at h
    rw [(List.cons.inj h).1, hd] at hc
    cases hc

/-- A character without a meaning has no backslash before it in a literal. -/
theorem endsLiteral_of_plain {c : Char} (hc : isMeta c = false) (u : Text) :
    EndsLiteral ('\\' :: c :: u) := by
  intro d v h
  cases hd : isMeta d with
  | true =>
    rw [escape_of_meta hd] at h
    rw [(List.cons.inj (List.cons.inj h).2).1, hd] at hc
    cases hc
  | false =>
    rw [escape_of_plain hd] at h
    exact plain_ne_backslash hd (List.cons.inj h).1.symm

/-- Escaped literals are alike only if they end in the same place. -/
theorem escape_append_inj {s t u v : Text} (hu : EndsLiteral u) (hv : EndsLiteral v)
    (h : escape s ++ u = escape t ++ v) : s = t ∧ u = v := by
  induction s generalizing t with
  | nil =>
    rw [escape_nil, List.nil_append] at h
    cases t with
    | nil => exact ⟨rfl, h⟩
    | cons d t =>
      rw [escape_cons, List.append_assoc] at h
      exact absurd h (hu d _)
  | cons c s ih =>
    rw [escape_cons c s, List.append_assoc] at h
    cases t with
    | nil => exact absurd h.symm (hv c _)
    | cons d t =>
      rw [escape_cons d t, List.append_assoc] at h
      obtain ⟨rfl, hrest⟩ := escape_singleton_append_inj h
      obtain ⟨rfl, huv⟩ := ih hrest
      exact ⟨rfl, huv⟩

/-! ## the parts of a pattern -/

/-- the text of a pattern behind its first literal, with a group before each of the others -/
def sourceFrom (m : Capture) (literals : List Text) : Text :=
  literals.flatMap (fun t => group m ++ escape t) ++ "\\z".toList

theorem sourceFrom_cons (m : Capture) (t : Text) (literals : List Text) :
    sourceFrom m (t :: literals) = group m ++ (escape t ++ sourceFrom m literals) := by
  unfold sourceFrom
  rw [List.flatMap_cons]
  simp only [List.append_assoc]

theorem source_eq (l : Layout) (m : Capture) :
    l.source m = "\\A".toList ++ (escape l.head ++ sourceFrom m (l.tail.map (·.2))) := by
  unfold source sourceFrom
  simp only [List.append_assoc]

theorem group_greedy : group .greedy = ['(', '?', 's', ':', '(', '.', '*', ')', ')'] := by decide

theorem group_lazy : group .lazy = ['(', '?', 's', ':', '(', '.', '*', '?', ')', ')'] := by decide

theorem sourceFrom_nil (m : Capture) : sourceFrom m [] = ['\\', 'z'] := by
  show "\\z".toList = _
  decide

theorem endsLiteral_group (m : Capture) (u : Text) : EndsLiteral (group m ++ u) := by
  have hparen : isMeta '(' = true := rfl
  cases m with
  | greedy =>
    rw [group_greedy]
    exact endsLiteral_of_meta hparen (by decide) _
  | lazy =>
    rw [group_lazy]
    exact endsLiteral_of_meta hparen (by decide) _

theorem endsLiteral_sourceFrom (m : Capture) (literals : List Text) :
    EndsLiteral (sourceFrom m literals) := by
  cases literals with
  | nil =>
    have hz : isMeta 'z' = false := rfl
    rw [sourceFrom_nil]
    exact endsLiteral_of_plain hz []
  | cons t literals =>
    rw [sourceFrom_cons]
    exact endsLiteral_group m _

/-- The groups of the two modes differ in the character behind the star. -/
theorem group_append_inj {m m' : Capture} {u v : Text} (h : group m ++ u = group m' ++ v) :
    m = m' ∧ u = v := by
  cases m with
  | greedy =>
    cases m' with
    | greedy => exact ⟨rfl, List.append_cancel_left h⟩
    | lazy => simp [group_greedy, group_lazy] at h
  | lazy =>
    cases m' with
    | greedy => simp [group_greedy, group_lazy] at h
    | lazy => exact ⟨rfl, List.append_cancel_left h⟩

/-- The end of a pattern is no group. -/
theorem sourceFrom_nil_ne_cons (m m' : Capture) (t : Text) (literals : List Text) :
    sourceFrom m [] ≠ sourceFrom m' (t :: literals) := by
  intro h
  rw [sourceFrom_nil, sourceFrom_cons] at h
  cases m' <;> simp [group_greedy, group_lazy] at h

theorem sourceFrom_inj {m m' : Capture} {ts ts' : List Text}
    (h : sourceFrom m ts = sourceFrom m' ts') : ts = ts' ∧ (ts ≠ [] → m = m') := by
  induction ts generalizing ts' with
  | nil =>
    cases ts' with
    | nil => exact ⟨rfl, fun hne => absurd rfl hne⟩
    | cons t' ts' => exact absurd h (sourceFrom_nil_ne_cons m m' t' ts')
  | cons t ts ih =>
    cases ts' with
    | nil => exact absurd h.symm (sourceFrom_nil_ne_cons m' m t ts)
    | cons t' ts' =>
      rw [sourceFrom_cons, sourceFrom_cons] at h
      obtain ⟨hm, hrest⟩ := group_append_inj h
      obtain ⟨rfl, htail⟩ :=
        escape_append_inj (endsLiteral_sourceFrom m ts) (endsLiteral_sourceFrom m' ts') hrest
      obtain ⟨rfl, -⟩ := ih htail
      exact ⟨rfl, fun _ => hm⟩

/-- Without slots the mode does not show. -/
theorem sourceFrom_congr {m m' : Capture} {ts : List Text} (h : ts ≠ [] → m = m') :
    sourceFrom m ts = sourceFrom m' ts := by
  cases ts with
  | nil => rfl
  | cons t ts => rw [h (List.cons_ne_nil t ts)]

/-! ## the whole pattern -/

theorem tail_literals_ne_nil_iff (l : Layout) : l.tail.map (·.2) ≠ [] ↔ 0 < l.slotCount := by
  rw [slotCount, List.length_pos_iff, ne_eq, ne_eq, List.map_eq_nil_iff]

/-- The text of a pattern says the literals of its layout, hence the number of slots, and the
capture mode if there is a slot; and it says nothing else. -/
theorem source_eq_source_iff (l l' : Layout) (m m' : Capture) :
    l.source m = l'.source m' ↔
      l.literals = l'.literals ∧ l.slotCount = l'.slotCount ∧ (0 < l.slotCount → m = m') := by
  rw [source_eq, source_eq, ← tail_literals_ne_nil_iff l]
  constructor
  · intro h
    obtain ⟨hhead, hrest⟩ := escape_append_inj (endsLiteral_sourceFrom m _)
      (endsLiteral_sourceFrom m' _) (List.append_cancel_left h)
    obtain ⟨htail, hm⟩ := sourceFrom_inj hrest
    have hlen := congrArg List.length htail
    rw [List.length_map, List.length_map] at hlen
    refine ⟨?_, hlen, hm⟩
    unfold literals
    rw [hhead, htail]
  · rintro ⟨hliterals, -, hm⟩
    obtain ⟨hhead, htail⟩ := List.cons.inj hliterals
    rw [hhead, sourceFrom_congr hm, htail]

/-- A literal that spells a slot is no slot. -/
example : source ⟨"(?s:(.*))".toList, []⟩ .greedy ≠ source ⟨[], [(⟨0⟩, [])]⟩ .greedy := by
  decide

end FormatInverse.Layout
