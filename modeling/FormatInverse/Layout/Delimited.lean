import FormatInverse.Config.Basic
import FormatInverse.Layout.Basic

/-!
# Matching by delimiters

The literals at both ends of a layout are cut off the input; what is left is split at the literals
between the slots, the delimiters.  For the longest texts the delimiters are looked for from the
right, each at its last occurrence before the one behind it; for the shortest texts from the left,
each at its first occurrence after the one before it.  Positions are byte positions in the input.
-/

namespace FormatInverse.Layout

/-- The positions of the delimiters between `lo` and `hi`, each as far right as can be. -/
def latest? (input : Text) (lo hi : Nat) : List Text → Option (List Nat)
  | [] => some []
  | delimiter :: rest => do
    let starts ← latest? input lo hi rest
    let window ← Text.slice? input lo (starts.headD hi)
    let k ← Text.rfind? delimiter window
    return (lo + k) :: starts

/-- The positions of the delimiters between `lo` and `hi`, each as far left as can be. -/
def earliest? (input : Text) (lo hi : Nat) : List Text → Option (List Nat)
  | [] => some []
  | delimiter :: rest => do
    let window ← Text.slice? input lo hi
    let k ← Text.find? delimiter window
    let starts ← earliest? input (lo + k + Text.bytes delimiter) hi rest
    return (lo + k) :: starts

def placements? (m : Capture) (input : Text) (lo hi : Nat) (delimiters : List Text) :
    Option (List Nat) :=
  match m with
  | .greedy => latest? input lo hi delimiters
  | .lazy => earliest? input lo hi delimiters

/-- The gaps that delimiters at the positions `starts` leave between `lo` and `hi`. -/
def gaps (lo hi : Nat) : List Text → List Nat → List ByteRange
  | delimiter :: rest, start :: starts =>
    ⟨lo, start⟩ :: gaps (start + Text.bytes delimiter) hi rest starts
  | _, _ => [⟨lo, hi⟩]

/-- The ranges of the slots in the input. -/
def delimitedRanges? (l : Layout) (m : Capture) (input : Text) : Option (List ByteRange) :=
  if l.tail.isEmpty then
    if input = l.head then some [] else none
  else if Text.bytes input < Text.bytes l.head + Text.bytes l.last
      || !l.head.isPrefixOf input || !l.last.isSuffixOf input then none
  else
    let lo := Text.bytes l.head
    let hi := Text.bytes input - Text.bytes l.last
    (placements? m input lo hi l.delimiters).map (gaps lo hi l.delimiters)

end FormatInverse.Layout
