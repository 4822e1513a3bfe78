import FormatInverse.Json.Reader
import FormatInverse.Proofs.Template.Form
import FormatInverse.Proofs.Text.Numeral

/-!
# What is written as JSON is read back

A value that `Reads` is read back from its writing wherever that stands: the reader stops exactly at
its end and hands on the rest.  Integers and texts read, and so do arrays and records of values that
do; all values that the library writes are made of these.

The reader takes at most two steps for a character, one into a list and one into the value there, so
twice the length of the text is enough for it (`read?_write`).
-/

namespace FormatInverse.Json

open Text (decimal)

variable {fuel : Nat} {c : Char} {t rest : Text} {j item : Json} {items : List Json}

/-- The text ends, or goes on with what may follow a value. -/
def Ends (rest : Text) : Prop := ∀ c ∈ rest.head?, c = ',' ∨ c = ']' ∨ c = '\x7d'

/-- The value is read back from its writing, whatever follows. -/
def Reads (j : Json) : Prop :=
  ∀ fuel rest, Ends rest → 2 * (write j).length ≤ fuel →
    readValue? fuel (write j ++ rest) = some (j, rest)

theorem ends_nil : Ends [] := fun _ h => by cases h

theorem ends_cons (hc : c = ',' ∨ c = ']' ∨ c = '\x7d') (t : Text) : Ends (c :: t) := by
  intro d hd
  cases hd
  exact hc

theorem skipBlank_cons (hc : isBlank c = false) (t : Text) : skipBlank (c :: t) = c :: t := by
  rw [skipBlank, List.dropWhile_cons, hc]
  rfl

/-! ## integers -/

/-- an integer as it is written -/
def integerText (n : Int) : Text :=
  if n < 0 then '-' :: decimal n.natAbs else decimal n.natAbs

theorem ofNat_eq_ofInt (n : Nat) : ofNat n = ofInt n := by
  rw [ofInt, if_neg (by omega), Int.natAbs_natCast]
  rfl

theorem integerText_cases (n : Int) :
    integerText n = '-' :: decimal n.natAbs ∧ n < 0 ∨
      integerText n = decimal n.natAbs ∧ 0 ≤ n := by
  rw [integerText]
  split_ifs with hn
  · exact Or.inl ⟨rfl, hn⟩
  · exact Or.inr ⟨rfl, by omega⟩

/-- A decimal numeral begins with a digit. -/
theorem exists_decimal_eq_cons (n : Nat) : ∃ c t, decimal n = c :: t ∧ c.isDigit = true := by
  obtain ⟨c, t, hn⟩ := List.exists_cons_of_ne_nil (Text.decimal_ne_nil n)
  exact ⟨c, t, hn, Text.isDigit_of_mem_decimal (by rw [hn]; exact List.mem_cons_self)⟩

theorem Ends.not_numeral (h : Ends rest) :
    ∀ c ∈ rest.head?, c.isDigit = false ∧ c ≠ '.' ∧ c ≠ 'e' ∧ c ≠ 'E' := by
  intro c hc
  rcases h c hc with rfl | rfl | rfl <;> decide

theorem readDigits?_run (ht : ∀ c ∈ t, c.isDigit = true) (hne : t ≠ [])
    (hrest : ∀ c ∈ rest.head?, c.isDigit = false) :
    readDigits? (t ++ rest) = some (t, rest) := by
  rw [readDigits?, Anchor.takeWhile_run ht hrest, Anchor.dropWhile_run ht hrest]
  exact if_neg (by simpa using hne)

theorem readInteger?_decimal (n : Nat) (hrest : ∀ c ∈ rest.head?, c.isDigit = false) :
    readInteger? (decimal n ++ rest) = some (decimal n, rest) := by
  have hdigits := readDigits?_run (fun c hc => Text.isDigit_of_mem_decimal hc)
    (Text.decimal_ne_nil n) hrest
  unfold readInteger?
  split
  · next after heq =>
    -- a zero stands alone
    obtain ⟨c, t, hn, -⟩ := exists_decimal_eq_cons n
    rw [hn, List.cons_append, List.cons.injEq] at heq
    obtain ⟨rfl, rfl⟩ := heq
    rw [hn, Text.eq_nil_of_decimal hn]
    rfl
  · exact hdigits

theorem readFraction?_of_ends (h : Ends rest) : readFraction? rest = some ([], rest) := by
  unfold readFraction?
  split
  · next after => exact absurd rfl (h.not_numeral '.' rfl).2.1
  · rfl

theorem readExponent?_of_ends (h : Ends rest) : readExponent? rest = some ([], rest) := by
  cases rest with
  | nil => rfl
  | cons c rest =>
    have hc := (h.not_numeral c rfl).2.2
    exact if_neg (not_or.mpr hc)

theorem readNumeral?_integerText (n : Int) (h : Ends rest) :
    readNumeral? (integerText n ++ rest) = some (integerText n, rest) := by
  have hinteger := readInteger?_decimal n.natAbs fun c hc => (h.not_numeral c hc).1
  rcases integerText_cases n with ⟨htext, -⟩ | ⟨htext, -⟩
  · rw [htext]
    simp [readNumeral?, hinteger, readFraction?_of_ends h, readExponent?_of_ends h]
  · have hsign : ∀ after, decimal n.natAbs ++ rest ≠ '-' :: after := by
      intro after heq
      obtain ⟨c, t, hn, hdigit⟩ := exists_decimal_eq_cons n.natAbs
      rw [hn, List.cons_append, List.cons.injEq] at heq
      rw [heq.1] at hdigit
      cases hdigit
    rw [htext]
    unfold readNumeral?
    split
    next sign after heq =>
      split at heq
      · next after' hcut => exact absurd hcut (hsign after')
      · cases heq
        simp [hinteger, readFraction?_of_ends h, readExponent?_of_ends h]

/-- An integer begins with a minus sign or a digit, and so with no other kind of value. -/
theorem exists_head_integerText (n : Int) :
    ∃ c t, integerText n = c :: t ∧ isBlank c = false ∧
      c ∉ ['\x22', '[', '\x7b', 'n', 't', 'f'] := by
  rcases integerText_cases n with ⟨htext, -⟩ | ⟨htext, -⟩
  · exact ⟨_, _, htext, by decide, by decide⟩
  · obtain ⟨c, t, hn, hdigit⟩ := exists_decimal_eq_cons n.natAbs
    refine ⟨c, t, htext.trans hn, ?_, ?_⟩
    · by_contra hblank
      simp only [isBlank, Bool.not_eq_false, Bool.or_eq_true, beq_iff_eq] at hblank
      rcases hblank with ((rfl | rfl) | rfl) | rfl <;> cases hdigit
    · intro hmem
      simp only [List.mem_cons, List.not_mem_nil, or_false] at hmem
      rcases hmem with rfl | rfl | rfl | rfl | rfl | rfl <;> cases hdigit

theorem reads_ofInt (n : Int) : Reads (ofInt n) := by
  intro fuel rest h hfuel
  have hnumeral := readNumeral?_integerText n h
  obtain ⟨c, t, htext, hblank, hkind⟩ := exists_head_integerText n
  have hwrite : write (ofInt n) = integerText n := rfl
  rw [hwrite, htext] at hfuel ⊢
  rw [htext] at hnumeral
  simp only [List.mem_cons, List.not_mem_nil, or_false, not_or] at hkind
  obtain ⟨hquote, hbracket, hbrace, hnull, htrue, hfalse⟩ := hkind
  cases fuel with
  | zero => simp at hfuel
  | succ fuel =>
    rw [List.cons_append] at hnumeral ⊢
    simp only [readValue?, skipBlank_cons hblank, hquote, hbracket, hbrace, hnull, htrue, hfalse,
      if_false, hnumeral, Option.map_some, ← htext]
    rfl

/-! ## texts -/

theorem hexValue?_digitChar {d : Nat} (hd : d < 16) :
    Text.hexValue? (Nat.digitChar d) = some d := by
  have hall : ∀ d, d < 16 → Text.hexValue? (Nat.digitChar d) = some d := by decide
  exact hall d hd

theorem readCodes?_quote (rest : Text) : readCodes? ('\x22' :: rest) = some ([], rest) := by
  rw [readCodes?.eq_def]
  rfl

theorem readCodes?_letter {e : Char} {code : Nat} (hletter : e ≠ 'u')
    (hcode : escapeCode? e = some code) (rest : Text) :
    readCodes? ('\\' :: e :: rest) = (readCodes? rest).map fun p => (code :: p.1, p.2) := by
  rw [readCodes?.eq_def]
  simp only [Char.reduceEq, if_false, if_true, if_neg hletter, hcode]
  cases readCodes? rest <;> rfl

theorem readCodes?_hex {a b c d : Char} {code : Nat} (hcode : hexCode? a b c d = some code)
    (rest : Text) :
    readCodes? ('\\' :: 'u' :: a :: b :: c :: d :: rest)
      = (readCodes? rest).map fun p => (code :: p.1, p.2) := by
  rw [readCodes?.eq_def]
  simp only [Char.reduceEq, if_false, if_true, hcode]
  cases readCodes? rest <;> rfl

theorem readCodes?_plain (hquote : c ≠ '\x22') (hescape : c ≠ '\\')
    (hcontrol : ¬ c.toNat < 0x20) (rest : Text) :
    readCodes? (c :: rest) = (readCodes? rest).map fun p => (c.toNat :: p.1, p.2) := by
  rw [readCodes?.eq_def]
  simp only [if_neg hquote, if_neg hescape, if_neg hcontrol]
  cases readCodes? rest <;> rfl

theorem hexCode?_control (hc : c.toNat < 0x20) :
    hexCode? '0' '0' (Nat.digitChar (c.toNat / 16)) (Nat.digitChar (c.toNat % 16))
      = some c.toNat := by
  have hhigh := hexValue?_digitChar (by omega : c.toNat / 16 < 16)
  have hlow := hexValue?_digitChar (by omega : c.toNat % 16 < 16)
  have hzero : Text.hexValue? '0' = some 0 := by decide
  simp only [hexCode?, hzero, hhigh, hlow]
  exact congrArg some (by omega)

/-- One character is one code, whichever way it is written. -/
theorem readCodes?_writeChar (c : Char) (rest : Text) :
    readCodes? (writeChar c ++ rest) = (readCodes? rest).map fun p => (c.toNat :: p.1, p.2) := by
  unfold writeChar
  split_ifs with hquote hescape hb ht hn hf hr hcontrol
  · rw [hquote]
    exact readCodes?_letter (by decide) rfl rest
  · rw [hescape]
    exact readCodes?_letter (by decide) rfl rest
  · rw [hb]
    exact readCodes?_letter (by decide) rfl rest
  · rw [ht]
    exact readCodes?_letter (by decide) rfl rest
  · rw [hn]
    exact readCodes?_letter (by decide) rfl rest
  · rw [hf]
    exact readCodes?_letter (by decide) rfl rest
  · rw [hr]
    exact readCodes?_letter (by decide) rfl rest
  · exact readCodes?_hex (hexCode?_control hcontrol) rest
  · exact readCodes?_plain hquote hescape hcontrol rest

theorem readCodes?_text (t rest : Text) :
    readCodes? (t.flatMap writeChar ++ '\x22' :: rest) = some (t.map Char.toNat, rest) := by
  induction t with
  | nil => exact readCodes?_quote rest
  | cons c t ih =>
    rw [List.flatMap_cons, List.append_assoc, readCodes?_writeChar, ih]
    rfl

/-- No character is half a surrogate pair, so the codes of a text spell it. -/
theorem spell?_codes (t : Text) : spell? (t.map Char.toNat) = some t := by
  induction t with
  | nil => rfl
  | cons c t ih =>
    have hvalid : c.toNat < 0xD800 ∨ 0xDFFF < c.toNat ∧ c.toNat < 0x110000 := c.valid
    have hleading : isLeading c.toNat = false := by
      simp [isLeading]
      omega
    have htrailing : isTrailing c.toNat = false := by
      simp [isTrailing]
      omega
    rw [List.map_cons, spell?.eq_def]
    simp [hleading, htrailing, ih]

theorem readString?_text (t rest : Text) :
    readString? (t.flatMap writeChar ++ '\x22' :: rest) = some (some t, rest) := by
  rw [readString?, readCodes?_text, Option.map_some]
  exact congrArg (fun s => some (s, rest)) (spell?_codes t)

theorem writeString_append (t rest : Text) :
    writeString (some t) ++ rest = '\x22' :: (t.flatMap writeChar ++ '\x22' :: rest) := by
  simp [writeString]

theorem reads_ofText (t : Text) : Reads (ofText t) := by
  intro fuel rest _ hfuel
  have hwrite : write (ofText t) = writeString (some t) := rfl
  have hlen : 0 < (write (ofText t)).length := by
    rw [hwrite, writeString]
    simp
  obtain ⟨k, rfl⟩ := Nat.exists_eq_add_one.mpr (by omega : 0 < fuel)
  rw [hwrite, writeString_append, readValue?, skipBlank_cons (by decide)]
  simp [readString?_text, ofText]

/-! ## words -/

theorem reads_null : Reads .null := by
  intro fuel rest _ hfuel
  obtain ⟨k, rfl⟩ := Nat.exists_eq_add_one.mpr (Nat.lt_of_lt_of_le (by decide) hfuel)
  rfl

theorem reads_bool (b : Bool) : Reads (.bool b) := by
  intro fuel rest _ hfuel
  have hpos : 0 < (write (.bool b)).length := by cases b <;> decide
  obtain ⟨k, rfl⟩ := Nat.exists_eq_add_one.mpr (by omega : 0 < fuel)
  cases b <;> rfl

/-! ## lists -/

/-- A value does not begin with the mark that closes an array. -/
theorem readValue?_bracket (h : skipBlank t = ']' :: rest) (fuel : Nat) :
    readValue? fuel t = none := by
  cases fuel with
  | zero => rfl
  | succ fuel =>
    rw [readValue?, h]
    rfl

theorem readItems?_bracket (h : skipBlank t = ']' :: rest) (fuel : Nat) :
    readItems? fuel t = none := by
  cases fuel with
  | zero => rfl
  | succ fuel =>
    rw [readItems?, readValue?_bracket h]
    rfl

theorem writeItems_cons (item next : Json) (items : List Json) :
    writeItems (item :: next :: items) = write item ++ ',' :: writeItems (next :: items) := rfl

theorem readItems?_write (hne : items ≠ []) (h : ∀ item ∈ items, Reads item)
    (hfuel : 2 * (writeItems items).length ≤ fuel) :
    readItems? fuel (writeItems items ++ rest) = some (items, rest) := by
  induction items generalizing fuel with
  | nil => exact absurd rfl hne
  | cons item items ih =>
    rw [List.forall_mem_cons] at h
    cases items with
    | nil =>
      rw [writeItems, List.length_append, List.length_singleton] at hfuel
      obtain ⟨k, rfl⟩ := Nat.exists_eq_add_one.mpr (by omega : 0 < fuel)
      have hitem := h.1 k (']' :: rest) (ends_cons (by simp) rest) (by omega)
      rw [writeItems, List.append_assoc, List.singleton_append, readItems?, hitem]
      rfl
    | cons next items =>
      rw [writeItems_cons, List.length_append, List.length_cons] at hfuel
      obtain ⟨k, rfl⟩ := Nat.exists_eq_add_one.mpr (by omega : 0 < fuel)
      have hitem := h.1 k (',' :: (writeItems (next :: items) ++ rest))
        (ends_cons (by simp) _) (by omega)
      have hitems := ih (List.cons_ne_nil _ _) h.2 (by omega : _ ≤ k)
      rw [writeItems_cons, List.append_assoc, List.cons_append, readItems?, hitem]
      show (readItems? k (writeItems (next :: items) ++ rest)).bind _ = _
      rw [hitems]
      rfl

theorem reads_array (h : ∀ item ∈ items, Reads item) : Reads (.array items) := by
  intro fuel rest _ hfuel
  rw [write, List.length_cons] at hfuel
  obtain ⟨k, rfl⟩ := Nat.exists_eq_add_one.mpr (by omega : 0 < fuel)
  rw [write, List.cons_append, readValue?, skipBlank_cons (by decide)]
  by_cases hne : items = []
  · rw [hne]
    rfl
  · have hitems : readItems? k (writeItems items ++ rest) = some (items, rest) :=
      readItems?_write hne h (by omega)
    simp only [Char.reduceEq, if_false, if_true]
    split
    · next after hclose =>
      rw [readItems?_bracket hclose] at hitems
      cases hitems
    · rw [hitems]
      rfl

/-! ## records -/

variable {members : List (Option Text × Json)}

theorem writeMembers_cons (name : Option Text) (value : Json) (next : Option Text × Json)
    (members : List (Option Text × Json)) :
    writeMembers ((name, value) :: next :: members)
      = writeString name ++ ':' :: (write value ++ ',' :: writeMembers (next :: members)) := rfl

/-- A member does not begin with the mark that closes an object. -/
theorem readMembers?_brace (h : skipBlank t = '\x7d' :: rest) (fuel : Nat) :
    readMembers? fuel t = none := by
  cases fuel with
  | zero => rfl
  | succ fuel =>
    rw [readMembers?, h]
    rfl

/-- A comma after the value of a member leads on to the next one. -/
theorem readMembers?_comma {k : Nat} {value : Json} {text : Text}
    (h : readValue? k text = some (value, ',' :: rest)) (t : Text) :
    readMembers? (k + 1) (writeString (some t) ++ ':' :: text)
      = (readMembers? k rest).map fun p => ((some t, value) :: p.1, p.2) := by
  rw [writeString_append, readMembers?, skipBlank_cons (by decide)]
  simp only [readString?_text, Option.bind_eq_bind, Option.bind_some,
    skipBlank_cons (by decide : isBlank ':' = false), h,
    skipBlank_cons (by decide : isBlank ',' = false)]
  cases readMembers? k rest <;> rfl

/-- A brace after the value of a member ends the record. -/
theorem readMembers?_last {k : Nat} {value : Json} {text : Text}
    (h : readValue? k text = some (value, '\x7d' :: rest)) (t : Text) :
    readMembers? (k + 1) (writeString (some t) ++ ':' :: text)
      = some ([(some t, value)], rest) := by
  rw [writeString_append, readMembers?, skipBlank_cons (by decide)]
  simp only [readString?_text, Option.bind_eq_bind, Option.bind_some,
    skipBlank_cons (by decide : isBlank ':' = false), h,
    skipBlank_cons (by decide : isBlank '\x7d' = false)]
  rfl

theorem readMembers?_write (hne : members ≠ [])
    (h : ∀ m ∈ members, (∃ t, m.1 = some t) ∧ Reads m.2)
    (hfuel : 2 * (writeMembers members).length ≤ fuel) :
    readMembers? fuel (writeMembers members ++ rest) = some (members, rest) := by
  induction members generalizing fuel with
  | nil => exact absurd rfl hne
  | cons m members ih =>
    rw [List.forall_mem_cons] at h
    obtain ⟨name, value⟩ := m
    obtain ⟨⟨⟨t, rfl⟩, hvalue⟩, hmembers⟩ := h
    replace hvalue : Reads value := hvalue
    cases members with
    | nil =>
      rw [writeMembers, List.length_append, List.length_cons, List.length_append,
        List.length_singleton] at hfuel
      obtain ⟨k, rfl⟩ := Nat.exists_eq_add_one.mpr (by omega : 0 < fuel)
      have hread := hvalue k ('\x7d' :: rest) (ends_cons (by simp) rest) (by omega)
      rw [writeMembers, List.append_assoc, List.cons_append, List.append_assoc,
        List.singleton_append, readMembers?_last hread]
    | cons next members =>
      rw [writeMembers_cons, List.length_append, List.length_cons, List.length_append,
        List.length_cons] at hfuel
      obtain ⟨k, rfl⟩ := Nat.exists_eq_add_one.mpr (by omega : 0 < fuel)
      have hread := hvalue k (',' :: (writeMembers (next :: members) ++ rest))
        (ends_cons (by simp) _) (by omega)
      have hrest := ih (List.cons_ne_nil _ _) hmembers (by omega : _ ≤ k)
      rw [writeMembers_cons, List.append_assoc, List.cons_append, List.append_assoc,
        List.cons_append, readMembers?_comma hread, hrest, Option.map_some]

theorem reads_object (h : ∀ m ∈ members, (∃ t, m.1 = some t) ∧ Reads m.2) :
    Reads (.object members) := by
  intro fuel rest _ hfuel
  rw [write, List.length_cons] at hfuel
  obtain ⟨k, rfl⟩ := Nat.exists_eq_add_one.mpr (by omega : 0 < fuel)
  rw [write, List.cons_append, readValue?, skipBlank_cons (by decide)]
  by_cases hne : members = []
  · rw [hne]
    rfl
  · have hmembers : readMembers? k (writeMembers members ++ rest) = some (members, rest) :=
      readMembers?_write hne h (by omega)
    simp only [Char.reduceEq, if_false, if_true]
    split
    · next after hclose =>
      rw [readMembers?_brace hclose] at hmembers
      cases hmembers
    · rw [hmembers]
      rfl

/-- A record reads as soon as its values do. -/
theorem reads_record {members : List (String × Json)} (h : ∀ m ∈ members, Reads m.2) :
    Reads (record members) := by
  refine reads_object fun m hm => ?_
  obtain ⟨⟨name, value⟩, hmem, rfl⟩ := List.mem_map.mp hm
  exact ⟨⟨name.toList, rfl⟩, h _ hmem⟩

/-! ## whole texts -/

theorem read?_write (h : Reads j) : read? (write j) = some j := by
  have hread := h (2 * (write j).length + 1) [] ends_nil (by omega)
  rw [List.append_nil] at hread
  rw [read?, hread]
  rfl

end FormatInverse.Json
