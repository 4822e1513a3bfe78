import FormatInverse.Json.Codec
import FormatInverse.Proofs.Json.Writing

/-!
# The library's values survive their writing

Reading what a placeholder, a term, a culture or captures are written as gives the same value
(`Json.read?_write_encode`).  Two facts make it up for each of them: the value that encodes it reads
(`reads_encode`), and decoding that value gives it back (`decode?_encode`).

A record with distinct names is looked up by name (`field?_fieldsOf`), whatever the order and number
of its members.
-/

namespace FormatInverse

namespace Json

open Text (decimal)

variable {α β : Type} {members : List (String × Json)} {name : String}

/-! ## fields of a record -/

/-- the fields of the record with these members -/
def fieldsOf (members : List (String × Json)) : Record Json :=
  .named (members.map fun m => (m.1.toList, m.2))

theorem record?_record (members : List (String × Json)) :
    record? (record members) = some (fieldsOf members) := by
  have hnamed : namedMembers? (members.map fun m => (some m.1.toList, m.2))
      = some (members.map fun m => (m.1.toList, m.2)) := by
    induction members with
    | nil => rfl
    | cons m members ih =>
      rw [List.map_cons, namedMembers?, List.mapM_cons, ← namedMembers?, ih]
      rfl
  exact congrArg (Option.map Record.named) hnamed

theorem lookup_cons_of_ne {written : String} (h : name ≠ written) (value : Json)
    (members : List (String × Json)) :
    ((written, value) :: members).lookup name = members.lookup name := by
  rw [List.lookup_cons, beq_false_of_ne h]

theorem filter_fieldsOf (h : (members.map Prod.fst).Nodup) (name : String) :
    (members.map fun m => (m.1.toList, m.2)).filter (fun field => field.1 == name.toList)
      = (members.lookup name).toList.map fun value => (name.toList, value) := by
  induction members with
  | nil => rfl
  | cons m members ih =>
    obtain ⟨written, value⟩ := m
    rw [List.map_cons, List.nodup_cons] at h
    rw [List.map_cons, List.filter_cons, ih h.2]
    by_cases hname : name = written
    · -- the name occurs here and nowhere after
      subst hname
      have hnone : members.lookup name = none := by
        rw [List.lookup_eq_none_iff]
        intro p hp
        rw [bne_iff_ne]
        intro heq
        exact h.1 (List.mem_map.mpr ⟨p, hp, heq.symm⟩)
      simp [hnone]
    · have hlist : written.toList ≠ name.toList := fun heq =>
        hname (String.toList_inj.mp heq).symm
      rw [lookup_cons_of_ne hname]
      simp [hlist]

theorem field?_fieldsOf (h : (members.map Prod.fst).Nodup) (place : Nat) (name : String) :
    (fieldsOf members).field? place name = some (members.lookup name) := by
  have hfilter := filter_fieldsOf h name
  unfold fieldsOf Record.field?
  dsimp only
  rw [hfilter]
  cases members.lookup name <;> rfl

theorem required?_fieldsOf (h : (members.map Prod.fst).Nodup) (place : Nat) (name : String)
    (read : Json → Option β) :
    (fieldsOf members).required? place name read = (members.lookup name).bind read := by
  rw [Record.required?, field?_fieldsOf h]
  cases members.lookup name <;> rfl

theorem fieldOr?_fieldsOf (h : (members.map Prod.fst).Nodup) (place : Nat) (name : String)
    (standard : β) (read : Json → Option β) :
    (fieldsOf members).fieldOr? place name standard read
      = (members.lookup name).elim (some standard) read := by
  rw [Record.fieldOr?, field?_fieldsOf h]
  cases members.lookup name <;> rfl

theorem complete_fieldsOf (members : List (String × Json)) (n : Nat) :
    (fieldsOf members).complete n = true := rfl

theorem atMost_fieldsOf (members : List (String × Json)) (n : Nat) :
    (fieldsOf members).atMost n = true := rfl

/-! ## numbers and texts -/

theorem all_isDigit_decimal (n : Nat) : (decimal n).all Char.isDigit = true :=
  List.all_eq_true.mpr fun _ hc => Text.isDigit_of_mem_decimal hc

theorem integer?_ofInt (n : Int) : integer? (ofInt n) = some n := by
  have hofInt : ofInt n = .number (integerText n) := rfl
  rw [hofInt]
  rcases integerText_cases n with ⟨htext, hn⟩ | ⟨htext, hn⟩
  · have hne : n.natAbs ≠ 0 := by omega
    rw [htext, integer?, all_isDigit_decimal, Text.value_decimal, Bool.true_and,
      if_pos (bne_iff_ne.mpr hne)]
    exact congrArg some (by omega)
  · rw [htext]
    unfold integer?
    split
    · next digits heq =>
      -- a minus sign is no digit, so a numeral without sign does not begin with one
      have hsign : '-' ∈ decimal n.natAbs := by
        rw [Json.number.inj heq]
        exact List.mem_cons_self
      cases Text.isDigit_of_mem_decimal hsign
    · next digits _ heq =>
      rw [← Json.number.inj heq, all_isDigit_decimal, Text.value_decimal, if_pos rfl]
      exact congrArg some (by omega)
    · next heq => exact absurd rfl (heq _)

theorem integerIn?_ofInt {lo hi n : Int} (hlo : lo ≤ n) (hhi : n < hi) :
    integerIn? lo hi (ofInt n) = some n := by
  rw [integerIn?, integer?_ofInt, Option.filter_some]
  simp [hlo, hhi]

theorem integerIn?_ofNat {hi n : Nat} (h : n < hi) :
    integerIn? 0 hi (ofNat n) = some (n : Int) := by
  rw [ofNat_eq_ofInt]
  exact integerIn?_ofInt (by omega) (by omega)

theorem word?_ofNat (x : UInt64) : word? (ofNat x.toNat) = some x := by
  rw [word?, integerIn?_ofNat x.toNat_lt_size]
  simp

theorem int32?_ofInt (x : Int32) : int32? (ofInt x.toInt) = some x := by
  rw [int32?, integerIn?_ofInt x.minValue_le_toInt (by have := x.toInt_le; omega)]
  simp

theorem text?_ofText (t : Text) : text? (ofText t) = some t := rfl

theorem optionalText?_ofOption (o : Option Text) : optionalText? (ofOption ofText o) = some o := by
  cases o <;> rfl

theorem reads_ofNat (n : Nat) : Reads (ofNat n) := by
  rw [ofNat_eq_ofInt]
  exact reads_ofInt n

theorem reads_ofOption (o : Option Text) : Reads (ofOption ofText o) := by
  cases o with
  | none => exact reads_null
  | some t => exact reads_ofText t

/-! ## lists -/

/-- the items of an array, each read by `read` -/
def items? (read : Json → Option α) : Json → Option (List α)
  | array items => items.mapM read
  | _ => none

theorem items?_map {encode : α → Json} {read : Json → Option α}
    (h : ∀ a, read (encode a) = some a) (l : List α) :
    items? read (.array (l.map encode)) = some l := by
  rw [items?, List.mapM_map]
  induction l with
  | nil => rfl
  | cons a l ih =>
    rw [List.mapM_cons, Function.comp_apply, h, ih]
    rfl

theorem reads_map {encode : α → Json} (h : ∀ a, Reads (encode a)) (l : List α) :
    Reads (.array (l.map encode)) := by
  refine reads_array fun item hitem => ?_
  obtain ⟨a, -, rfl⟩ := List.mem_map.mp hitem
  exact h a

end Json

open Json

/-! ## terms and placeholders -/

theorem TermId.decode?_encode (id : TermId) : TermId.decode? id.encode = some id := by
  rw [TermId.decode?, TermId.encode, integerIn?_ofNat id.val.toNat_lt_size]
  simp [TermId.ofCount]

theorem Term.decode?_encode (t : Term) : Term.decode? t.encode = some t := by
  simp [Term.decode?, Term.encode, record?_record, complete_fieldsOf, required?_fieldsOf,
    fieldOr?_fieldsOf, lookup_cons_of_ne, TermId.decode?_encode, text?_ofText, word?_ofNat,
    int32?_ofInt, optionalText?_ofOption]

theorem Term.reads_encode (t : Term) : Reads t.encode := by
  refine reads_record ?_
  simp only [List.forall_mem_cons]
  exact ⟨reads_ofNat _, reads_ofText _, reads_ofNat _, reads_ofInt _, reads_ofOption _, by simp⟩

theorem Placeholder.decode?_encode (p : Placeholder) : Placeholder.decode? p.encode = some p := by
  simp [Placeholder.decode?, Placeholder.encode, record?_record, complete_fieldsOf,
    required?_fieldsOf, fieldOr?_fieldsOf, lookup_cons_of_ne, text?_ofText, word?_ofNat,
    int32?_ofInt, optionalText?_ofOption]

theorem Placeholder.reads_encode (p : Placeholder) : Reads p.encode := by
  refine reads_record ?_
  simp only [List.forall_mem_cons]
  exact ⟨reads_ofNat _, reads_ofText _, reads_ofText _, reads_ofInt _, reads_ofOption _, by simp⟩

/-! ## captures -/

/-- The captures that a value holds: the texts of its template and of its input, and the array of
its buckets, each an array of placeholders. -/
def Captures.decode? (j : Json) : Option Captures := do
  let r ← record? j
  let template ← r.required? 0 "template" text?
  let input ← r.required? 1 "input" text?
  let buckets ← r.required? 2 "buckets" (items? (items? Placeholder.decode?))
  return ⟨template, input, buckets.toArray⟩

theorem Captures.decode?_encode (c : Captures) : Captures.decode? c.encode = some c := by
  have hbuckets := items?_map (items?_map Placeholder.decode?_encode) c.buckets.toList
  simp [Captures.decode?, Captures.encode, record?_record, required?_fieldsOf, lookup_cons_of_ne,
    text?_ofText, hbuckets]

theorem Captures.reads_encode (c : Captures) : Reads c.encode := by
  have hbuckets := reads_map (reads_map Placeholder.reads_encode) c.buckets.toList
  refine reads_record ?_
  simp only [List.forall_mem_cons]
  exact ⟨reads_ofText _, reads_ofText _, hbuckets, by simp⟩

/-! ## cultures -/

theorem DateOrder.decode?_encode (o : DateOrder) : DateOrder.decode? o.encode = some o := by
  cases o <;> rfl

theorem Culture.decode?_encode (c : Culture) : Culture.decode? c.encode = some c := by
  have hchar : ∀ x : Char, char? (ofText [x]) = some x := fun _ => rfl
  simp [Culture.decode?, Culture.encode, record?_record, complete_fieldsOf, required?_fieldsOf,
    lookup_cons_of_ne, hchar, DateOrder.decode?_encode]

theorem Culture.reads_encode (c : Culture) : Reads c.encode := by
  refine reads_record ?_
  simp only [List.forall_mem_cons]
  exact ⟨reads_ofText _, reads_ofText _, reads_ofText _, by simp⟩

/-! ## texts -/

/-- What is written as a text is read from it. -/
theorem Json.bind_read?_write {decode? : Json → Option α} {j : Json} {a : α} (hreads : Reads j)
    (hdecode : decode? j = some a) : (read? j.write).bind decode? = some a := by
  rw [read?_write hreads]
  exact hdecode

/-- Captures, placeholders, terms and cultures are read from the texts that they are written as,
each as it was.  So no two captures are written alike. -/
theorem Json.read?_write_encode :
    (∀ c : Captures, (read? c.toJson).bind Captures.decode? = some c) ∧
      Function.Injective Captures.toJson ∧
      (∀ p : Placeholder, (read? p.encode.write).bind Placeholder.decode? = some p) ∧
      (∀ t : Term, (read? t.encode.write).bind Term.decode? = some t) ∧
      ∀ c : Culture, (read? c.encode.write).bind Culture.decode? = some c := by
  have hcaptures : ∀ c : Captures, (read? c.toJson).bind Captures.decode? = some c := fun c =>
    bind_read?_write c.reads_encode c.decode?_encode
  refine ⟨hcaptures, ?_, fun p => bind_read?_write p.reads_encode p.decode?_encode,
    fun t => bind_read?_write t.reads_encode t.decode?_encode,
    fun c => bind_read?_write c.reads_encode c.decode?_encode⟩
  intro c c' hwrite
  apply Option.some.inj
  calc some c = (read? c.toJson).bind Captures.decode? := (hcaptures c).symm
    _ = (read? c'.toJson).bind Captures.decode? := by rw [hwrite]
    _ = some c' := hcaptures c'

end FormatInverse
