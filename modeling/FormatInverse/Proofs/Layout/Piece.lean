import FormatInverse.Layout.Basic

/-!
# The layout of a list of pieces

`Layout.ofPieces` joins neighbouring literals and keeps the slots in order: filling its slots with
the texts of their terms gives the texts of the pieces, one after the other (`fill_ofPieces`).
-/

namespace FormatInverse

namespace Piece

/-- the text of a piece, when `value` gives the text of every term -/
def text (value : TermId → Text) : Piece → Text
  | literal t => t
  | slot id => value id

def slots : Piece → List TermId
  | literal _ => []
  | slot id => [id]

end Piece

namespace Layout

theorem fill_literalBefore (t : Text) (l : Layout) (captured : List Text) :
    (literalBefore t l).fill captured = t ++ l.fill captured :=
  List.append_assoc _ _ _

theorem fill_slotBefore (id : TermId) (l : Layout) (c : Text) (captured : List Text) :
    (slotBefore id l).fill (c :: captured) = c ++ l.fill captured := by
  rw [fill, fill, slotBefore, List.map_cons, List.zipWith_cons_cons, List.flatten_cons,
    List.append_assoc]
  rfl

theorem slots_ofPieces (pieces : List Piece) :
    (ofPieces pieces).slots = pieces.flatMap Piece.slots := by
  induction pieces with
  | nil => rfl
  | cons piece pieces ih =>
    rw [List.flatMap_cons, ← ih]
    cases piece <;> rfl

theorem fill_ofPieces (value : TermId → Text) (pieces : List Piece) :
    (ofPieces pieces).fill ((ofPieces pieces).slots.map value)
      = pieces.flatMap (Piece.text value) := by
  induction pieces with
  | nil => rfl
  | cons piece pieces ih =>
    rw [List.flatMap_cons, ← ih]
    cases piece with
    | literal t => exact fill_literalBefore t _ _
    | slot id => exact fill_slotBefore id _ _ _

end Layout

end FormatInverse
