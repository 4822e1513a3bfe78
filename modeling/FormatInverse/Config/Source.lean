import FormatInverse.Text.Basic

/-!
# What settings are read from

A value of a data format offers itself as a record of fields, as one of several names, as a truth
value or as a number, each or none of them; `Source` collects these views.  A record has either
named fields or fields by position.
-/

namespace FormatInverse

inductive Record (α : Type) where
  | named (fields : List (Text × α))
  | positional (items : List α)

class Source (α : Type) where
  record? : α → Option (Record α)
  name? : α → Option Text
  truth? : α → Option Bool
  word? : α → Option UInt64

namespace Record

variable {α β : Type}

/-- The field at a place or of a name: `none` if the name occurs twice, `some none` if the field is
not given. -/
def field? (r : Record α) (place : Nat) (name : String) : Option (Option α) :=
  match r with
  | named fields =>
    match fields.filter fun (written, _) => written == name.toList with
    | [] => some none
    | [(_, value)] => some (some value)
    | _ => none
  | positional items => some items[place]?

/-- A field that has a value of its own when it is not given. -/
def fieldOr? (r : Record α) (place : Nat) (name : String) (standard : β) (read : α → Option β) :
    Option β :=
  match r.field? place name with
  | none => none
  | some none => some standard
  | some (some value) => read value

/-- A field that must be given. -/
def required? (r : Record α) (place : Nat) (name : String) (read : α → Option β) : Option β :=
  match r.field? place name with
  | some (some value) => read value
  | _ => none

/-- Whether a record by position has at most `n` fields. -/
def atMost (r : Record α) (n : Nat) : Bool :=
  match r with
  | named _ => true
  | positional items => items.length ≤ n

/-- Whether a record by position has all of its `n` fields. -/
def complete (r : Record α) (n : Nat) : Bool :=
  match r with
  | named _ => true
  | positional items => items.length == n

end Record

end FormatInverse
