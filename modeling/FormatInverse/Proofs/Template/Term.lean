import FormatInverse.Template.Term
import Mathlib.Algebra.Group.Nat.Defs
import Mathlib.Data.List.Forall2
import Mathlib.Data.List.Nodup

/-!
# The terms and the pieces of a list of tokens

`place` goes through the tokens and may append a term at each placeholder.  `Term.Placing` says how
the terms before and after the walk, the tokens and the pieces hang together, and
`Term.placing_place` proves it along the tokens.
-/

namespace FormatInverse

open Term (find? intern place)

/-- Against the terms of a template a token becomes a piece: its text, or the slot of a term that
has its anchor. -/
inductive Token.Becomes (terms : List Term) : Token → Piece → Prop
  | literal (t : Text) : Becomes terms (.literal t) (.literal t)
  | placeholder (offset : Nat) {a : Anchor} {term : Term} (hmem : term ∈ terms)
      (htext : term.anchor.text = a.text) : Becomes terms (.placeholder offset a) (.slot term.id)

namespace Term

variable {terms terms' : List Term} {toks : List Token} {pieces : List Piece}

/-! ## interning one anchor -/

/-- Terms are numbered in order, and no two have one anchor. -/
structure Numbered (terms : List Term) : Prop where
  ids : terms.map (·.id) = (List.range terms.length).map TermId.ofCount
  anchors : (terms.map (·.anchor.text)).Nodup

theorem Numbered.nil : Numbered [] := ⟨rfl, List.nodup_nil⟩

/-- An anchor has a term already, or gets the next number. -/
theorem intern_cases (terms : List Term) (a : Anchor) :
    (∃ term ∈ terms, term.anchor.text = a.text ∧ intern terms a = (term.id, terms)) ∨
    ((∀ term ∈ terms, term.anchor.text ≠ a.text) ∧
      intern terms a = (.ofCount terms.length, terms ++ [⟨.ofCount terms.length, a⟩])) := by
  rw [intern]
  cases h : find? terms a.text with
  | some term =>
    have htext : (term.anchor.text == a.text) = true :=
      List.find?_some (p := fun term : Term => term.anchor.text == a.text) h
    exact Or.inl ⟨term, List.mem_of_find?_eq_some h, beq_iff_eq.mp htext, rfl⟩
  | none =>
    have hnone := List.find?_eq_none.mp h
    exact Or.inr ⟨fun term hterm heq => hnone term hterm (beq_iff_eq.mpr heq), rfl⟩

theorem Numbered.concat (h : Numbered terms) {a : Anchor}
    (hnew : ∀ term ∈ terms, term.anchor.text ≠ a.text) :
    Numbered (terms ++ [⟨.ofCount terms.length, a⟩]) := by
  constructor
  · rw [List.map_append, h.ids, List.length_append, List.length_singleton, List.range_succ,
      List.map_append]
    rfl
  · rw [List.map_append]
    refine List.Nodup.append h.anchors (List.nodup_singleton _) ?_
    intro text htext hsingle
    obtain ⟨term, hterm, rfl⟩ := List.mem_map.mp htext
    exact hnew term hterm (List.mem_singleton.mp hsingle)

/-- The numbers are different as long as they fit in their word. -/
theorem Numbered.nodup_ids (h : Numbered terms) (hlen : terms.length ≤ 2 ^ 32) :
    (terms.map (·.id)).Nodup := by
  rw [h.ids]
  refine List.Nodup.map_on ?_ List.nodup_range
  intro i hi j hj hij
  rw [List.mem_range] at hi hj
  have hval := congrArg (fun id : TermId => id.val.toNat) hij
  show i = j
  simp only [TermId.ofCount, UInt32.toNat_ofNat'] at hval
  omega

/-! ## a walk along the tokens -/

/-- What a walk along `toks` makes of the terms `before`. -/
structure Placing (before : List Term) (toks : List Token) (pieces : List Piece)
    (after : List Term) : Prop where
  numbered : Numbered before → Numbered after
  subset : before ⊆ after
  length_le : after.length ≤ before.length + toks.length
  pieces : List.Forall₂ (Token.Becomes after) toks pieces
  /-- every new term has the anchor of a placeholder that was met -/
  met : ∀ term ∈ after, term ∈ before ∨ ∃ offset, Token.placeholder offset term.anchor ∈ toks

theorem Placing.literal (t : Text) (h : Placing terms toks pieces terms') :
    Placing terms (.literal t :: toks) (.literal t :: pieces) terms' := by
  refine ⟨h.numbered, h.subset, ?_, List.Forall₂.cons (.literal t) h.pieces, fun term hterm => ?_⟩
  · have := h.length_le
    rw [List.length_cons]
    omega
  · rcases h.met term hterm with hold | ⟨offset, hmem⟩
    · exact Or.inl hold
    · exact Or.inr ⟨offset, List.mem_cons_of_mem _ hmem⟩

/-- A placeholder whose anchor has a term already. -/
theorem Placing.known {a : Anchor} {term : Term} (offset : Nat) (hmem : term ∈ terms)
    (htext : term.anchor.text = a.text) (h : Placing terms toks pieces terms') :
    Placing terms (.placeholder offset a :: toks) (.slot term.id :: pieces) terms' := by
  have hbecomes := Token.Becomes.placeholder offset (h.subset hmem) htext
  refine ⟨h.numbered, h.subset, ?_, List.Forall₂.cons hbecomes h.pieces, fun term' hterm' => ?_⟩
  · have := h.length_le
    rw [List.length_cons]
    omega
  · rcases h.met term' hterm' with hold | ⟨offset', hmem'⟩
    · exact Or.inl hold
    · exact Or.inr ⟨offset', List.mem_cons_of_mem _ hmem'⟩

/-- A placeholder whose anchor was not met before. -/
theorem Placing.new {a : Anchor} (offset : Nat)
    (hnew : ∀ term ∈ terms, term.anchor.text ≠ a.text)
    (h : Placing (terms ++ [⟨.ofCount terms.length, a⟩]) toks pieces terms') :
    Placing terms (.placeholder offset a :: toks) (.slot (.ofCount terms.length) :: pieces)
      terms' := by
  have hlast : ⟨.ofCount terms.length, a⟩ ∈ terms' :=
    h.subset (List.mem_append_right _ (List.mem_singleton.mpr rfl))
  have hbecomes := Token.Becomes.placeholder (a := a) offset hlast rfl
  refine ⟨fun hnum => h.numbered (hnum.concat hnew), fun term hterm => ?_, ?_,
    List.Forall₂.cons hbecomes h.pieces, fun term hterm => ?_⟩
  · exact h.subset (List.mem_append_left _ hterm)
  · have := h.length_le
    rw [List.length_append, List.length_singleton] at this
    rw [List.length_cons]
    omega
  · rcases h.met term hterm with hold | ⟨offset', hmem'⟩
    · rcases List.mem_append.mp hold with hold | hsingle
      · exact Or.inl hold
      · rw [List.mem_singleton.mp hsingle]
        exact Or.inr ⟨offset, List.mem_cons_self⟩
    · exact Or.inr ⟨offset', List.mem_cons_of_mem _ hmem'⟩

theorem placing_place (terms : List Term) (toks : List Token) :
    Placing terms toks (place terms toks).1 (place terms toks).2 := by
  induction toks generalizing terms with
  | nil =>
    exact ⟨fun h => h, fun _ h => h, Nat.le_refl _, List.Forall₂.nil, fun _ h => Or.inl h⟩
  | cons tok toks ih =>
    cases tok with
    | literal t => exact (ih terms).literal t
    | placeholder offset a =>
      show Placing terms _ (.slot (intern terms a).1 :: (place (intern terms a).2 toks).1)
        (place (intern terms a).2 toks).2
      rcases intern_cases terms a with ⟨term, hmem, htext, heq⟩ | ⟨hnew, heq⟩
      · rw [heq]
        exact (ih terms).known offset hmem htext
      · rw [heq]
        exact (ih _).new offset hnew

end Term

end FormatInverse
