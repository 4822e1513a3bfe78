import FormatInverse.Template.Anchor

/-!
# Captures: what was recovered from an input

A placeholder is an anchor with the text captured for it.  `Captures` keeps placeholders in buckets,
one bucket for every index from zero on.
-/

namespace FormatInverse

structure Placeholder where
  anchor : Anchor
  value : Text
  deriving DecidableEq, Repr

structure Captures where
  template : Text
  input : Text
  buckets : Array (List Placeholder)
  deriving DecidableEq, Repr

namespace Captures

/-- the number of buckets -/
def size (c : Captures) : Nat := c.buckets.size

def isEmpty (c : Captures) : Bool := c.buckets.isEmpty

/-- the placeholders of one index -/
def get? (c : Captures) (index : Nat) : Option (List Placeholder) := c.buckets[index]?

/-- the first placeholder of one index -/
def first? (c : Captures) (index : Nat) : Option Placeholder := (c.get? index).bind List.head?

/-- all placeholders, by buckets -/
def placeholders (c : Captures) : List Placeholder := c.buckets.toList.flatten

/-- The buckets in order, each with the number of buckets that are left when it is reached. -/
def walk (c : Captures) : List (Nat × List Placeholder) :=
  c.buckets.toList.mapIdx fun i bucket => (c.size - i, bucket)

end Captures

end FormatInverse
