/-!
# Classes of characters as ranges of code points
-/

namespace FormatInverse

/-- a class of characters: the code points from the first to the last member of some pair -/
abbrev CharClass := List (Nat × Nat)

namespace CharClass

def has (k : CharClass) (c : Char) : Bool :=
  k.any fun (first, last) => first ≤ c.toNat && c.toNat ≤ last

end CharClass

end FormatInverse
