import FormatInverse.Template.Token

/-!
# The tokens of a template text

The sources of the tokens make up the text (`flatMap_source_of_tokensFrom`), and none of them is
empty, so a text has at most as many tokens as bytes (`length_le_bytes_of_tokensFrom`).
-/

namespace FormatInverse

variable {limit : UInt64} {offset : Nat} {t : Text} {toks : List Token}

/-! ## steps that may fail -/

section
variable {ε α β : Type} {x : Except ε α} {f : α → Except ε β}

theorem bind_eq_ok {b : β} : (x >>= f) = .ok b ↔ ∃ a, x = .ok a ∧ f a = .ok b := by
  cases x with
  | error e => simp [bind, Except.bind]
  | ok a => simp [bind, Except.bind]

/-- Of two steps, the first that fails makes the whole fail. -/
theorem bind_eq_error {e : ε} :
    (x >>= f) = .error e ↔ x = .error e ∨ ∃ a, x = .ok a ∧ f a = .error e := by
  cases x with
  | error e' => simp [bind, Except.bind]
  | ok a => simp [bind, Except.bind]

end

/-! ## the first token and those behind it -/

section
variable {c : Char} {rest : Text}

theorem tokensFrom_eq_bind : tokensFrom limit offset (c :: rest) = (do
    let (tok, after) ← Token.first limit offset c rest
    let toks ← tokensFrom limit (offset + Text.bytes tok.source) after
    return tok :: toks) := by
  rw [tokensFrom]
  split
  · next e hfirst =>
    rw [hfirst]
    rfl
  · next tok after hfirst =>
    show (tokensFrom limit (offset + Text.bytes tok.source) after).map (tok :: ·) = _
    rw [hfirst]
    show _ = (do
      let toks ← tokensFrom limit (offset + Text.bytes tok.source) after
      return tok :: toks)
    cases tokensFrom limit (offset + Text.bytes tok.source) after <;> rfl

theorem exists_cons_of_tokensFrom (h : tokensFrom limit offset (c :: rest) = .ok toks) :
    ∃ tok after toks', Token.first limit offset c rest = .ok (tok, after) ∧
      tokensFrom limit (offset + Text.bytes tok.source) after = .ok toks' ∧
      toks = tok :: toks' := by
  rw [tokensFrom_eq_bind] at h
  obtain ⟨⟨tok, after⟩, hfirst, h⟩ := bind_eq_ok.mp h
  obtain ⟨toks', hrest, h⟩ := bind_eq_ok.mp h
  cases h
  exact ⟨tok, after, toks', hfirst, hrest, rfl⟩

theorem tokensFrom_cons {after : Text} {tok : Token}
    (hfirst : Token.first limit offset c rest = .ok (tok, after))
    (hrest : tokensFrom limit (offset + Text.bytes tok.source) after = .ok toks) :
    tokensFrom limit offset (c :: rest) = .ok (tok :: toks) := by
  rw [tokensFrom_eq_bind]
  exact bind_eq_ok.mpr ⟨(tok, after), hfirst, bind_eq_ok.mpr ⟨toks, hrest, rfl⟩⟩

/-- A text that is not empty fails at its first token or behind it. -/
theorem tokensFrom_error_cases {e : TemplateError}
    (h : tokensFrom limit offset (c :: rest) = .error e) :
    Token.first limit offset c rest = .error e ∨
    ∃ tok after, Token.first limit offset c rest = .ok (tok, after) ∧
      tokensFrom limit (offset + Text.bytes tok.source) after = .error e := by
  rw [tokensFrom_eq_bind] at h
  rcases bind_eq_error.mp h with hfirst | ⟨⟨tok, after⟩, hfirst, h⟩
  · exact Or.inl hfirst
  · rcases bind_eq_error.mp h with hrest | ⟨toks, -, hdone⟩
    · exact Or.inr ⟨tok, after, hfirst, hrest⟩
    · cases hdone

end

/-! ## sources -/

theorem flatMap_source_of_tokensFrom (h : tokensFrom limit offset t = .ok toks) :
    toks.flatMap Token.source = t ∧ ∀ tok ∈ toks, tok.source ≠ [] := by
  induction hn : t.length using Nat.strongRecOn generalizing offset t toks with
  | ind n ih =>
    cases t with
    | nil =>
      rw [tokensFrom] at h
      cases h
      exact ⟨rfl, fun tok htok => absurd htok List.not_mem_nil⟩
    | cons c rest =>
      obtain ⟨tok, after, toks', hfirst, hrest, rfl⟩ := exists_cons_of_tokensFrom h
      have hlt : after.length < n := by
        rw [← hn]
        exact Token.length_of_first hfirst
      obtain ⟨hsource, hne⟩ := ih after.length hlt hrest rfl
      constructor
      · rw [List.flatMap_cons, hsource, Token.first_eq_append hfirst]
      · intro tok' htok'
        rcases List.mem_cons.mp htok' with rfl | htok'
        · exact Token.source_ne_nil_of_first hfirst
        · exact hne tok' htok'

theorem Text.length_le_bytes (t : Text) : t.length ≤ Text.bytes t := by
  induction t with
  | nil => exact Nat.le_refl 0
  | cons c t ih =>
    have := Char.utf8Size_pos c
    rw [List.length_cons, Text.bytes_cons]
    omega

theorem length_le_length_flatMap {α β : Type} {f : α → List β} {as : List α}
    (h : ∀ a ∈ as, f a ≠ []) : as.length ≤ (as.flatMap f).length := by
  induction as with
  | nil => exact Nat.le_refl 0
  | cons a as ih =>
    have ha := List.length_pos_iff.mpr (h a List.mem_cons_self)
    have has := ih fun b hb => h b (List.mem_cons_of_mem a hb)
    rw [List.flatMap_cons, List.length_append, List.length_cons]
    omega

theorem length_le_bytes_of_tokensFrom (h : tokensFrom limit offset t = .ok toks) :
    toks.length ≤ Text.bytes t := by
  obtain ⟨hsource, hne⟩ := flatMap_source_of_tokensFrom h
  have hlen := length_le_length_flatMap hne
  rw [hsource] at hlen
  exact Nat.le_trans hlen (Text.length_le_bytes t)

end FormatInverse
