import FormatInverse.Text.Blank
import Mathlib.Data.List.TakeWhile

/-!
# Texts with white space around them

`trim` is `trimStart` and then `trimEnd`, the same from the other end.

* `trim_surround`   white space around a text does not change what `trim` leaves of it;
* `filter_trim`     characters that are no white space stay;
* `trim_map`        a change of characters that keeps white space can be made before or after.
-/

namespace FormatInverse.Text

variable {c : Char} {s t before after : Text}

theorem isBlank_of_isDigit (hc : c.isDigit = true) : isBlank c = false := by
  have h := Char.isDigit_iff_toNat.mp hc
  have h0 : '0'.toNat = 48 := rfl
  have h9 : '9'.toNat = 57 := rfl
  simp only [isBlank, CharClass.has, CharClass.blank, List.any_cons, List.any_nil,
    Bool.or_false, Bool.or_eq_false_iff, Bool.and_eq_false_iff, decide_eq_false_iff_not]
  omega

/-! ## one end -/

theorem trimStart_blank (hs : ∀ b ∈ s, isBlank b = true) : trimStart s = [] :=
  List.dropWhile_eq_nil_iff.mpr hs

theorem trimStart_append_of_blank (hs : ∀ b ∈ s, isBlank b = true) (t : Text) :
    trimStart (s ++ t) = trimStart t :=
  List.dropWhile_append_of_pos hs

theorem trimStart_cons (hc : isBlank c = false) (t : Text) : trimStart (c :: t) = c :: t :=
  List.dropWhile_cons_of_neg (by simp [hc])

theorem trimStart_of_head? (h : ∀ c ∈ t.head?, isBlank c = false) : trimStart t = t := by
  cases t with
  | nil => rfl
  | cons c t => exact trimStart_cons (h c rfl) t

/-- Either nothing is left, or what follows is not touched. -/
theorem trimStart_append (s t : Text) :
    trimStart (s ++ t) = if trimStart s = [] then trimStart t else trimStart s ++ t := by
  unfold trimStart
  rw [List.dropWhile_append]
  simp

/-- the text without white space at its end -/
def trimEnd (t : Text) : Text := (trimStart t.reverse).reverse

theorem trim_eq (t : Text) : trim t = trimEnd (trimStart t) := rfl

theorem trimEnd_prefix (t : Text) : trimEnd t <+: t := by
  unfold trimEnd
  rw [← List.reverse_suffix, List.reverse_reverse]
  exact List.dropWhile_suffix _

theorem trimEnd_append_of_blank (hs : ∀ b ∈ s, isBlank b = true) (t : Text) :
    trimEnd (t ++ s) = trimEnd t := by
  unfold trimEnd
  rw [List.reverse_append, trimStart_append_of_blank]
  intro b hb
  exact hs b (List.mem_reverse.mp hb)

theorem trimEnd_append (s t : Text) :
    trimEnd (s ++ t) = if trimEnd t = [] then trimEnd s else s ++ trimEnd t := by
  unfold trimEnd
  rw [List.reverse_append, trimStart_append]
  split_ifs with h₁ h₂ h₂
  · rfl
  · simp [h₁] at h₂
  · simp_all
  · simp

theorem trimEnd_of_getLast? (h : ∀ c ∈ t.getLast?, isBlank c = false) : trimEnd t = t := by
  unfold trimEnd
  rw [trimStart_of_head?, List.reverse_reverse]
  rw [List.head?_reverse]
  exact h

/-- What ends in no white space is not touched. -/
theorem trimEnd_append_of_getLast? (h : ∀ c ∈ s.getLast?, isBlank c = false) (t : Text) :
    trimEnd (s ++ t) = s ++ trimEnd t := by
  rw [trimEnd_append]
  split_ifs with ht
  · rw [ht, List.append_nil, trimEnd_of_getLast? h]
  · rfl

/-! ## both ends -/

theorem trim_surround (hbefore : ∀ b ∈ before, isBlank b = true)
    (hafter : ∀ b ∈ after, isBlank b = true) (t : Text) :
    trim (before ++ t ++ after) = trim t := by
  rw [trim_eq, trim_eq, List.append_assoc, trimStart_append_of_blank hbefore, trimStart_append]
  split_ifs with h
  · rw [h, trimStart_blank hafter]
  · exact trimEnd_append_of_blank hafter (trimStart t)

theorem trim_of_not_blank (h : ∀ c ∈ t, isBlank c = false) : trim t = t := by
  have hstart : trimStart t = t := by
    apply trimStart_of_head?
    intro c hc
    exact h c (List.mem_of_mem_head? hc)
  rw [trim_eq, hstart]
  apply trimEnd_of_getLast?
  intro c hc
  exact h c (List.mem_of_getLast? hc)

/-- What is no white space stays, in its order. -/
theorem filter_trim {p : Char → Bool} (hp : ∀ c, isBlank c = true → p c = false) (t : Text) :
    (trim t).filter p = t.filter p := by
  have hstart : ∀ s : Text, (trimStart s).filter p = s.filter p := by
    intro s
    have hblanks : (s.takeWhile isBlank).filter p = [] := by
      rw [List.filter_eq_nil_iff]
      intro c hc
      rw [hp c (List.mem_takeWhile_imp hc)]
      exact Bool.false_ne_true
    calc (trimStart s).filter p
        = (s.takeWhile isBlank ++ s.dropWhile isBlank).filter p := by
          rw [List.filter_append, hblanks, List.nil_append, trimStart]
      _ = s.filter p := by rw [List.takeWhile_append_dropWhile]
  unfold trim
  rw [List.filter_reverse, hstart, List.filter_reverse, List.reverse_reverse, hstart]

theorem trim_map {f : Char → Char} (hf : ∀ c, isBlank (f c) = isBlank c) (t : Text) :
    trim (t.map f) = (trim t).map f := by
  have hcomp : isBlank ∘ f = isBlank := funext hf
  unfold trim trimStart
  rw [List.dropWhile_map, hcomp, ← List.map_reverse, List.dropWhile_map, hcomp, List.map_reverse]

end FormatInverse.Text
