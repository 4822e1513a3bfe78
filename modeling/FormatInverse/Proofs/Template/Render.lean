import FormatInverse.Proofs.Layout.Piece
import FormatInverse.Proofs.Template.Term
import FormatInverse.Proofs.Template.Token
import FormatInverse.Template.Recover
import Mathlib

/-!
# Rendering a template

`Template.render` puts a text in place of every anchor of the template text, and knows nothing of
terms or layouts.  A compiled template is `Linked`: its terms and its layout say the same as its
tokens, so that rendering is filling the layout (`Linked.render_eq_fill`).
-/

namespace FormatInverse

namespace Token

/-- the text of a token, when `value` gives the text of every anchor -/
def rendered (value : Text → Text) : Token → Text
  | literal t => t
  | placeholder _ a => value a.text

def anchors : Token → List Text
  | literal _ => []
  | placeholder _ a => [a.text]

end Token

namespace Template

/-- the tokens of the template text -/
def toks (t : Template) : List Token := (tokens t.config.limits.maxIndex t.text).toOption.getD []

/-- the anchors in the order of their slots, each as often as it is placed -/
def anchors (t : Template) : List Text := t.toks.flatMap Token.anchors

/-- The decoded literals of the template with the texts of the anchors between them. -/
def render (t : Template) (value : Text → Text) : Text := t.toks.flatMap (Token.rendered value)

variable {t : Template} {config : Config} {text : Text}

/-! ## compiling -/

theorem compile_eq_ok_iff :
    compile config text = .ok t ↔
      config.fault? = none ∧ Text.bytes text ≤ config.limits.maxTemplateLength.toNat ∧
        Layout.patternFault? config = none ∧
        ∃ toks, tokens config.limits.maxIndex text = .ok toks ∧
          t = ofTokens config text toks := by
  simp only [compile, bind, Except.bind]
  constructor
  · intro h
    split at h
    · cases h
    · next hfault =>
      split at h
      · cases h
      · next hlen =>
        cases htoks : tokens config.limits.maxIndex text with
        | error e =>
          rw [htoks] at h
          cases h
        | ok toks =>
          rw [htoks] at h
          cases hpattern : Layout.patternFault? config with
          | some e =>
            rw [hpattern] at h
            cases h
          | none =>
            rw [hpattern] at h
            cases h
            exact ⟨Option.eq_none_iff_forall_ne_some.mpr hfault, Nat.le_of_not_lt hlen, rfl, toks,
              rfl, rfl⟩
  · rintro ⟨hfault, hlen, hpattern, toks, htoks, rfl⟩
    rw [hfault, hpattern, htoks]
    show (if _ then _ else _) = _
    rw [if_neg (Nat.not_lt.mpr hlen)]
    rfl

theorem config_of_compile (h : compile config text = .ok t) : t.config = config := by
  obtain ⟨-, -, -, toks, -, rfl⟩ := compile_eq_ok_iff.mp h
  rfl

/-- The layout and the terms are what a walk along the tokens makes of them. -/
theorem place_of_compile (h : compile config text = .ok t) :
    tokens config.limits.maxIndex text = .ok t.toks ∧
      t.layout = .ofPieces (Term.place [] t.toks).1 ∧ t.terms = (Term.place [] t.toks).2 := by
  obtain ⟨-, -, -, toks, htoks, rfl⟩ := compile_eq_ok_iff.mp h
  have e : (ofTokens config text toks).toks = toks := by
    show (tokens config.limits.maxIndex text).toOption.getD [] = toks
    rw [htoks]
    rfl
  rw [e]
  exact ⟨htoks, rfl, rfl⟩

/-! ## what the terms and the layout have to do with the tokens -/

/-- The terms and the layout of a template are those of its tokens, and its terms can be told apart
by their numbers. -/
structure Linked (t : Template) : Prop where
  nodup_ids : (t.terms.map (·.id)).Nodup
  nodup_anchors : (t.terms.map (·.anchor.text)).Nodup
  becomes : ∃ pieces, t.layout = .ofPieces pieces ∧
    List.Forall₂ (Token.Becomes t.terms) t.toks pieces
  met : ∀ term ∈ t.terms, ∃ offset, Token.placeholder offset term.anchor ∈ t.toks

theorem numbered_of_compile (h : compile config text = .ok t) (hsize : Text.bytes text < 2 ^ 32) :
    Term.Numbered t.terms ∧ t.terms.length < 2 ^ 32 := by
  obtain ⟨htoks, -, hterms⟩ := place_of_compile h
  have hplacing := Term.placing_place [] t.toks
  rw [← hterms] at hplacing
  have hcount := length_le_bytes_of_tokensFrom htoks
  have hlen := hplacing.length_le
  rw [List.length_nil] at hlen
  exact ⟨hplacing.numbered Term.Numbered.nil, by omega⟩

theorem linked_of_compile (h : compile config text = .ok t) (hsize : Text.bytes text < 2 ^ 32) :
    t.Linked := by
  obtain ⟨-, hlayout, hterms⟩ := place_of_compile h
  obtain ⟨hnumbered, hlen⟩ := numbered_of_compile h hsize
  have hplacing := Term.placing_place [] t.toks
  rw [← hterms] at hplacing
  refine ⟨hnumbered.nodup_ids (Nat.le_of_lt hlen), hnumbered.anchors,
    ⟨_, hlayout, hplacing.pieces⟩, fun term hterm => ?_⟩
  rcases hplacing.met term hterm with hnil | hmet
  · exact absurd hnil List.not_mem_nil
  · exact hmet

/-! ## lists -/

section
variable {α β γ : Type} {R : α → β → Prop} {as : List α} {bs : List β}

theorem flatMap_eq_of_forall₂ {f : α → List γ} {g : β → List γ} (h : List.Forall₂ R as bs)
    (hfg : ∀ a b, R a b → f a = g b) : as.flatMap f = bs.flatMap g := by
  rw [← List.forall₂_eq_eq_eq]
  refine List.rel_flatMap h fun a b hab => ?_
  rw [List.forall₂_eq_eq_eq]
  exact hfg a b hab

theorem exists_right_of_forall₂ (h : List.Forall₂ R as bs) {a : α} (ha : a ∈ as) :
    ∃ b ∈ bs, R a b := by
  induction h with
  | nil => cases ha
  | cons hab _ ih =>
    rcases List.mem_cons.mp ha with rfl | ha
    · exact ⟨_, List.mem_cons_self, hab⟩
    · obtain ⟨b, hb, hr⟩ := ih ha
      exact ⟨b, List.mem_cons_of_mem _ hb, hr⟩

theorem exists_left_of_forall₂ (h : List.Forall₂ R as bs) {b : β} (hb : b ∈ bs) :
    ∃ a ∈ as, R a b :=
  exists_right_of_forall₂ h.flip hb

/-- Where no two elements share a key, an element is what a search for its key finds. -/
theorem find?_of_nodup_map [BEq β] [LawfulBEq β] {key : α → β} (h : (as.map key).Nodup) {a : α}
    (ha : a ∈ as) : as.find? (key · == key a) = some a := by
  cases hfind : as.find? (key · == key a) with
  | none =>
    have hne := List.find?_eq_none.mp hfind a ha
    exact absurd (beq_self_eq_true (key a)) hne
  | some a' =>
    have hkey : (key a' == key a) = true := List.find?_some (p := (key · == key a)) hfind
    rw [List.inj_on_of_nodup_map h (List.mem_of_find?_eq_some hfind) ha (beq_iff_eq.mp hkey)]

end

/-! ## what a linked template says -/

namespace Linked

theorem anchorText_id (h : t.Linked) {term : Term} (hterm : term ∈ t.terms) :
    t.anchorText term.id = term.anchor.text := by
  rw [anchorText, find?_of_nodup_map h.nodup_ids hterm]
  rfl

/-- A rendered template is its layout, filled with the texts of the anchors. -/
theorem render_eq_fill (h : t.Linked) (value : Text → Text) :
    t.render value = t.layout.fill (t.layout.slots.map fun id => value (t.anchorText id)) := by
  obtain ⟨pieces, hlayout, hbecomes⟩ := h.becomes
  rw [hlayout, Layout.fill_ofPieces]
  refine flatMap_eq_of_forall₂ hbecomes fun tok piece hpiece => ?_
  cases hpiece with
  | literal text => rfl
  | placeholder offset hmem htext =>
    show value _ = value (t.anchorText _)
    rw [h.anchorText_id hmem, htext]

/-- The anchors are those of the slots. -/
theorem anchors_eq (h : t.Linked) : t.anchors = t.layout.slots.map t.anchorText := by
  obtain ⟨pieces, hlayout, hbecomes⟩ := h.becomes
  rw [hlayout, Layout.slots_ofPieces, List.map_flatMap]
  refine flatMap_eq_of_forall₂ hbecomes fun tok piece hpiece => ?_
  cases hpiece with
  | literal text => rfl
  | placeholder offset hmem htext =>
    show [_] = [t.anchorText _]
    rw [h.anchorText_id hmem, htext]

theorem exists_term_of_mem_slots (h : t.Linked) {id : TermId} (hid : id ∈ t.layout.slots) :
    ∃ term ∈ t.terms, term.id = id := by
  obtain ⟨pieces, hlayout, hbecomes⟩ := h.becomes
  rw [hlayout, Layout.slots_ofPieces, List.mem_flatMap] at hid
  obtain ⟨piece, hpiece, hid⟩ := hid
  obtain ⟨tok, -, hbecome⟩ := exists_left_of_forall₂ hbecomes hpiece
  cases hbecome with
  | literal text => exact absurd hid List.not_mem_nil
  | placeholder offset hmem htext =>
    obtain rfl := List.mem_singleton.mp hid
    exact ⟨_, hmem, rfl⟩

theorem id_mem_slots (h : t.Linked) {term : Term} (hterm : term ∈ t.terms) :
    term.id ∈ t.layout.slots := by
  obtain ⟨offset, hmet⟩ := h.met term hterm
  obtain ⟨pieces, hlayout, hbecomes⟩ := h.becomes
  obtain ⟨piece, hpiece, hbecome⟩ := exists_right_of_forall₂ hbecomes hmet
  rw [hlayout, Layout.slots_ofPieces, List.mem_flatMap]
  cases hbecome with
  | placeholder offset hmem htext =>
    -- the slot belongs to a term with the same anchor, and there is only one
    rw [List.inj_on_of_nodup_map h.nodup_anchors hmem hterm htext] at hpiece
    exact ⟨_, hpiece, List.mem_singleton.mpr rfl⟩

theorem ids_subset_slots (h : t.Linked) : t.terms.map (·.id) ⊆ t.layout.slots := by
  intro id hid
  obtain ⟨term, hterm, rfl⟩ := List.mem_map.mp hid
  exact h.id_mem_slots hterm

end Linked

/-! ## a template with one anchor in two places -/

def sampleText : Text := "\x7b0\x7d, \x7b1\x7d--\x7b0\x7d".toList

def sample (config : Config) : Template where
  text := sampleText
  terms := [⟨⟨0⟩, "\x7b0\x7d".toList, 0, 0, none⟩, ⟨⟨1⟩, "\x7b1\x7d".toList, 1, 0, none⟩]
  layout := ⟨[], [(⟨0⟩, ", ".toList), (⟨1⟩, "--".toList), (⟨0⟩, [])]⟩
  config := config

theorem compile_sample : compile .standard sampleText = .ok (sample .standard) := by cbv

theorem compile_sample_linearTime : compile .linearTime sampleText = .ok (sample .linearTime) := by
  cbv

end Template

end FormatInverse
