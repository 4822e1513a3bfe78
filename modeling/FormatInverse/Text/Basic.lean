/-!
# Texts and their byte positions

A text is the list of its characters.  Positions and lengths are counted in the bytes of its UTF-8
form, so not every number is a position: `dropBytes?`, `takeBytes?` and `slice?` answer `none` off a
character boundary and past the end.  `find?` and `rfind?` give the byte position of the first and
of the last occurrence of one text in another; the empty text occurs at both ends.
-/

namespace FormatInverse

abbrev Text := List Char

namespace Text

/-! ## bytes -/

/-- the number of bytes of the UTF-8 form -/
def bytes : Text → Nat
  | [] => 0
  | c :: rest => c.utf8Size + bytes rest

@[simp] theorem bytes_nil : bytes [] = 0 := rfl

@[simp] theorem bytes_cons (c : Char) (t : Text) : bytes (c :: t) = c.utf8Size + bytes t := rfl

@[simp] theorem bytes_append (s t : Text) : bytes (s ++ t) = bytes s + bytes t := by
  induction s with
  | nil => simp
  | cons c s ih => simp [ih, Nat.add_assoc]

theorem bytes_eq_zero {t : Text} : bytes t = 0 ↔ t = [] := by
  cases t with
  | nil => simp
  | cons c t =>
    have := Char.utf8Size_pos c
    simp only [bytes_cons, List.cons_ne_nil, iff_false]
    omega

/-! ## cutting at a byte position -/

/-- the text after its first `n` bytes -/
def dropBytes? : Text → Nat → Option Text
  | t, 0 => some t
  | [], _ + 1 => none
  | c :: rest, n + 1 =>
    if c.utf8Size ≤ n + 1 then dropBytes? rest (n + 1 - c.utf8Size) else none

/-- the first `n` bytes of the text -/
def takeBytes? : Text → Nat → Option Text
  | _, 0 => some []
  | [], _ + 1 => none
  | c :: rest, n + 1 =>
    if c.utf8Size ≤ n + 1 then (takeBytes? rest (n + 1 - c.utf8Size)).map (c :: ·) else none

/-- the bytes from `lo` up to `hi` -/
def slice? (t : Text) (lo hi : Nat) : Option Text :=
  if lo ≤ hi then (dropBytes? t lo).bind (takeBytes? · (hi - lo)) else none

/-- the bytes from `lo` up to `hi`, nothing where `slice?` answers `none` -/
def slice (t : Text) (lo hi : Nat) : Text := (slice? t lo hi).getD []

theorem dropBytes?_bytes_append (s t : Text) : dropBytes? (s ++ t) (bytes s) = some t := by
  induction s with
  | nil => cases t <;> rfl
  | cons c s ih =>
    have hc := Char.utf8Size_pos c
    obtain ⟨n, hn⟩ : ∃ n, c.utf8Size + bytes s = n + 1 := ⟨c.utf8Size + bytes s - 1, by omega⟩
    rw [List.cons_append, bytes_cons, hn, dropBytes?, if_pos (by omega),
      show n + 1 - c.utf8Size = bytes s by omega, ih]

theorem takeBytes?_bytes_append (s t : Text) : takeBytes? (s ++ t) (bytes s) = some s := by
  induction s with
  | nil => cases t <;> rfl
  | cons c s ih =>
    have hc := Char.utf8Size_pos c
    obtain ⟨n, hn⟩ : ∃ n, c.utf8Size + bytes s = n + 1 := ⟨c.utf8Size + bytes s - 1, by omega⟩
    rw [List.cons_append, bytes_cons, hn, takeBytes?, if_pos (by omega),
      show n + 1 - c.utf8Size = bytes s by omega, ih]
    rfl

/-- The bytes of the middle of three parts are the middle part. -/
theorem slice?_middle (p s t : Text) :
    slice? (p ++ s ++ t) (bytes p) (bytes p + bytes s) = some s := by
  rw [slice?, if_pos (by omega), List.append_assoc, dropBytes?_bytes_append, Option.bind_some,
    Nat.add_sub_cancel_left, takeBytes?_bytes_append]

/-! ## occurrences -/

/-- the byte position of the first occurrence of `p` -/
def find? (p : Text) : Text → Option Nat
  | [] => if p.isEmpty then some 0 else none
  | c :: rest => if p.isPrefixOf (c :: rest) then some 0 else (find? p rest).map (c.utf8Size + ·)

/-- the byte position of the last occurrence of `p` -/
def rfind? (p : Text) : Text → Option Nat
  | [] => if p.isEmpty then some 0 else none
  | c :: rest =>
    match rfind? p rest with
    | some k => some (c.utf8Size + k)
    | none => if p.isPrefixOf (c :: rest) then some 0 else none

end Text

end FormatInverse
