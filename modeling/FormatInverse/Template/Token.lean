import FormatInverse.Template.Anchor

/-!
# Tokens of a template text

A template text is literal text, in which each brace is written twice, and anchors.  `tokens` cuts
it into literal tokens, which hold the text they stand for, and placeholder tokens; `Token.source`
is the template text that a token was read from.
-/

namespace FormatInverse

inductive Token where
  | literal (text : Text)
  /-- an anchor and the byte offset of its opening brace -/
  | placeholder (offset : Nat) (anchor : Anchor)
  deriving DecidableEq, Repr

namespace Token

def isBrace (c : Char) : Bool := c == '\x7b' || c == '\x7d'

/-- a literal text as a template writes it -/
def doubled (t : Text) : Text := t.flatMap fun c => if isBrace c then [c, c] else [c]

def source : Token → Text
  | literal t => doubled t
  | placeholder _ a => a.text

/-- The first token of the text `c :: rest` at `offset`, and the text after the token. -/
def first (limit : UInt64) (offset : Nat) (c : Char) (rest : Text) :
    Except TemplateError (Token × Text) :=
  if c = '\x7b' then
    match rest with
    | '\x7b' :: after => .ok (literal ['\x7b'], after)
    | _ => (Anchor.read limit offset rest).map fun (a, after) => (placeholder offset a, after)
  else if c = '\x7d' then
    match rest with
    | '\x7d' :: after => .ok (literal ['\x7d'], after)
    | _ => .error (.unbalancedBrace offset)
  else .ok (literal (c :: rest.takeWhile (!isBrace ·)), rest.dropWhile (!isBrace ·))

theorem doubled_cons (c : Char) (t : Text) : doubled (c :: t) = doubled [c] ++ doubled t := by
  rw [doubled, doubled, doubled, List.flatMap_cons, List.flatMap_singleton]

theorem doubled_of_brace {c : Char} (hc : isBrace c = true) : doubled [c] = [c, c] := by
  rw [doubled, List.flatMap_singleton, if_pos hc]

theorem doubled_eq_self {t : Text} (h : ∀ c ∈ t, isBrace c = false) : doubled t = t := by
  induction t with
  | nil => rfl
  | cons c t ih =>
    have hc := h c (by simp)
    have ht := ih fun d hd => h d (by simp [hd])
    simp only [doubled] at ht
    simp [doubled, hc, ht]

/-- The text up to the next brace, behind a character that is none. -/
theorem doubled_run {c : Char} (hc : isBrace c = false) (rest : Text) :
    doubled (c :: rest.takeWhile (!isBrace ·)) = c :: rest.takeWhile (!isBrace ·) := by
  refine doubled_eq_self fun d hd => ?_
  rcases List.mem_cons.mp hd with rfl | hd
  · exact hc
  · have := List.all_eq_true.mp List.all_takeWhile d hd
    simpa using this

/-- The first token is a doubled brace, an anchor, or the text up to the next brace. -/
theorem first_cases {limit : UInt64} {offset : Nat} {c : Char} {rest after : Text} {tok : Token}
    (h : first limit offset c rest = .ok (tok, after)) :
    (isBrace c = true ∧ rest = c :: after ∧ tok = literal [c]) ∨
    (c = '\x7b' ∧ ∃ a, Anchor.read limit offset rest = .ok (a, after) ∧
      tok = placeholder offset a) ∨
    (isBrace c = false ∧ after = rest.dropWhile (!isBrace ·) ∧
      tok = literal (c :: rest.takeWhile (!isBrace ·))) := by
  unfold first at h
  split at h
  · next hopen =>
    split at h
    · cases h
      exact Or.inl ⟨by simp [isBrace, hopen], by rw [hopen], by rw [hopen]⟩
    · cases hread : Anchor.read limit offset rest with
      | error e =>
        rw [hread] at h
        cases h
      | ok r =>
        rw [hread] at h
        cases h
        exact Or.inr (Or.inl ⟨hopen, r.1, rfl, rfl⟩)
  · next hopen =>
    split at h
    · next hclose =>
      split at h
      · cases h
        exact Or.inl ⟨by simp [isBrace, hclose], by rw [hclose], by rw [hclose]⟩
      · cases h
    · next hclose =>
      cases h
      exact Or.inr (Or.inr ⟨by simp [isBrace, hopen, hclose], rfl, rfl⟩)

/-- The source of the first token and the text after it make up the text. -/
theorem first_eq_append {limit : UInt64} {offset : Nat} {c : Char} {rest after : Text}
    {tok : Token} (h : first limit offset c rest = .ok (tok, after)) :
    c :: rest = tok.source ++ after := by
  rcases first_cases h with ⟨hc, rfl, rfl⟩ | ⟨rfl, a, hread, rfl⟩ | ⟨hc, rfl, rfl⟩
  · rw [source, doubled_of_brace hc]
    rfl
  · exact Anchor.read_eq_append hread
  · rw [source, doubled_run hc, List.cons_append, List.takeWhile_append_dropWhile]

theorem source_ne_nil_of_first {limit : UInt64} {offset : Nat} {c : Char} {rest after : Text}
    {tok : Token} (h : first limit offset c rest = .ok (tok, after)) : tok.source ≠ [] := by
  rcases first_cases h with ⟨hc, -, rfl⟩ | ⟨-, a, hread, rfl⟩ | ⟨hc, -, rfl⟩
  · rw [source, doubled_of_brace hc]
    exact List.cons_ne_nil _ _
  · exact Anchor.text_ne_nil_of_read hread
  · rw [source, doubled_run hc]
    exact List.cons_ne_nil _ _

theorem length_of_first {limit : UInt64} {offset : Nat} {c : Char} {rest after : Text}
    {tok : Token} (h : first limit offset c rest = .ok (tok, after)) :
    after.length < (c :: rest).length := by
  have hsource := List.length_pos_iff.mpr (source_ne_nil_of_first h)
  rw [first_eq_append h, List.length_append]
  omega

end Token

/-- The tokens of a template text that stands at `offset`. -/
def tokensFrom (limit : UInt64) (offset : Nat) (t : Text) : Except TemplateError (List Token) :=
  match t with
  | [] => .ok []
  | c :: rest =>
    match h : Token.first limit offset c rest with
    | .error e => .error e
    | .ok (tok, after) =>
      have := Token.length_of_first h
      (tokensFrom limit (offset + Text.bytes tok.source) after).map (tok :: ·)
  termination_by t.length
  decreasing_by exact this

/-- The tokens of a template text whose indices are at most `limit`. -/
def tokens (limit : UInt64) (t : Text) : Except TemplateError (List Token) := tokensFrom limit 0 t

end FormatInverse
