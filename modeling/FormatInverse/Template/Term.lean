import FormatInverse.Template.Token

/-!
# Terms: the distinct anchors of a template

A template may place one anchor several times; all its placements belong to one term.  `place` goes
through the tokens and gives the terms, numbered in the order of their first placement, and the
pieces of the template, in which a slot names the term that fills it.
-/

namespace FormatInverse

/-- the number of a term, a 32-bit word -/
structure TermId where
  val : UInt32
  deriving DecidableEq, Repr

namespace TermId

def ofCount (n : Nat) : TermId := ⟨UInt32.ofNat n⟩

def name (id : TermId) : Text := ['i', 'd'] ++ Text.decimal id.val.toNat

end TermId

structure Term where
  id : TermId
  anchor : Anchor
  deriving DecidableEq, Repr

/-- a part of a template: text that stands as it is, or a place for the text of a term -/
inductive Piece where
  | literal (text : Text)
  | slot (id : TermId)
  deriving DecidableEq, Repr

namespace Term

/-- the first term whose anchor is written `anchor` -/
def find? (terms : List Term) (anchor : Text) : Option Term :=
  terms.find? (·.anchor.text == anchor)

/-- The term of an anchor: the one that has it already, or a new one at the end. -/
def intern (terms : List Term) (a : Anchor) : TermId × List Term :=
  match find? terms a.text with
  | some term => (term.id, terms)
  | none => (.ofCount terms.length, terms ++ [⟨.ofCount terms.length, a⟩])

/-- The pieces of a template, after the terms that were met before. -/
def place : List Term → List Token → List Piece × List Term
  | terms, [] => ([], terms)
  | terms, .literal t :: rest =>
    let (pieces, terms) := place terms rest
    (.literal t :: pieces, terms)
  | terms, .placeholder _ a :: rest =>
    let (id, terms) := intern terms a
    let (pieces, terms) := place terms rest
    (.slot id :: pieces, terms)

/-- the largest index among the terms -/
def maxIndex? (terms : List Term) : Option UInt64 := (terms.map (·.anchor.index)).max?

end Term

end FormatInverse
