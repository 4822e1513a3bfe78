import FormatInverse.Template.Term

/-!
# Layouts

The layout of a template is its literal text with slots in between: literal, slot, literal, and so
on, a literal (possibly empty) at both ends and between any two slots.  Hence a layout is its first
literal and a list of slots, each with the literal after it, and `literals_length` holds by the
shape of the type.

`fill` puts a text into every slot, `ranges` says where these texts then stand.
-/

namespace FormatInverse

/-- the bytes from `start` up to `stop` -/
structure ByteRange where
  start : Nat
  stop : Nat
  deriving DecidableEq, Repr

structure Layout where
  head : Text
  tail : List (TermId × Text)
  deriving DecidableEq, Repr

namespace Layout

/-! ## building -/

def empty : Layout := ⟨[], []⟩

/-- `t` in front of the layout -/
def literalBefore (t : Text) (l : Layout) : Layout := ⟨t ++ l.head, l.tail⟩

/-- a slot in front of the layout -/
def slotBefore (id : TermId) (l : Layout) : Layout := ⟨[], (id, l.head) :: l.tail⟩

/-- the layout of a list of pieces -/
def ofPieces : List Piece → Layout
  | [] => empty
  | .literal t :: rest => literalBefore t (ofPieces rest)
  | .slot id :: rest => slotBefore id (ofPieces rest)

/-- the literal `t` and the slots after it, followed by the layout `m` -/
def followedBy (m : Layout) (t : Text) : List (TermId × Text) → Layout
  | [] => literalBefore t m
  | (id, u) :: rest => literalBefore t (slotBefore id (followedBy m u rest))

/-- one more piece at the end -/
def push (l : Layout) (p : Piece) : Layout := followedBy (ofPieces [p]) l.head l.tail

/-! ## parts -/

def literals (l : Layout) : List Text := l.head :: l.tail.map (·.2)

def slots (l : Layout) : List TermId := l.tail.map (·.1)

def slotCount (l : Layout) : Nat := l.tail.length

/-- the literals between two slots -/
def delimiters (l : Layout) : List Text := (l.tail.map (·.2)).dropLast

/-- the literal after the last slot -/
def last (l : Layout) : Text := (l.tail.map (·.2)).getLastD []

/-- how many neighbouring slots have no text between them -/
def adjacentPairs (l : Layout) : Nat := l.delimiters.countP List.isEmpty

theorem literals_length (l : Layout) : l.literals.length = l.slotCount + 1 := by
  simp [literals, slotCount]

theorem slots_length (l : Layout) : l.slots.length = l.slotCount := by
  simp [slots, slotCount]

/-! ## filling the slots -/

/-- The text of a layout whose slots hold `captured`, one text per slot. -/
def fill (l : Layout) (captured : List Text) : Text :=
  l.head ++ (List.zipWith (· ++ ·) captured (l.tail.map (·.2))).flatten

/-- The ranges of texts from byte `offset` on, each followed by a literal. -/
def rangesFrom (offset : Nat) : List Text → List Text → List ByteRange
  | c :: captured, t :: literals =>
    ⟨offset, offset + Text.bytes c⟩ ::
      rangesFrom (offset + Text.bytes c + Text.bytes t) captured literals
  | _, _ => []

/-- Where the texts `captured` stand in `l.fill captured`. -/
def ranges (l : Layout) (captured : List Text) : List ByteRange :=
  rangesFrom (Text.bytes l.head) captured (l.tail.map (·.2))

end Layout

end FormatInverse
