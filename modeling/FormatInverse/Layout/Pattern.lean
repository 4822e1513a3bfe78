import FormatInverse.Config.Basic
import FormatInverse.Layout.Basic

/-!
# Matching by pattern

The pattern of a layout spells its literals, with a group for every slot that matches any text, the
longest or the shortest first; it has to match the whole input.  `source` is the pattern as text,
with a backslash before every character of a literal that has a meaning of its own in patterns.

Trying the lengths of each slot in order, and the next slots for each of them, finds the first match
in that order, but may take very long.  `closings` tells beforehand, for every position at which a
slot can end, whether the rest of the pattern matches there; then the first length that is not
ruled out is the right one, and no slot is tried twice.
-/

namespace FormatInverse.Layout

/-! ## the text of a pattern -/

/-- the characters with a meaning in patterns -/
def isMeta (c : Char) : Bool :=
  ['\\', '.', '+', '*', '?', '(', ')', '|', '[', ']', '\x7b', '\x7d', '^', '$', '#', '&', '-',
    '~'].contains c

def escape (t : Text) : Text := t.flatMap fun c => if isMeta c then ['\\', c] else [c]

/-- the group of a slot -/
def group : Capture → Text
  | .greedy => "(?s:(.*))".toList
  | .lazy => "(?s:(.*?))".toList

def source (l : Layout) (m : Capture) : Text :=
  "\\A".toList ++ escape l.head ++
    (l.tail.map (·.2)).flatMap (fun t => group m ++ escape t) ++ "\\z".toList

/-- The least number of bytes that the program of a pattern can take: every program has at least
seven instructions of 32 bytes.  It is a bound from below for all layouts alike; the size of the
program of a given layout is not computed here. -/
def smallestProgram : Nat := 7 * 32

/-! ## the matches -/

/-- the ends of a text, the whole text first -/
def ends : Text → List Text
  | [] => [[]]
  | c :: rest => (c :: rest) :: ends rest

/-- For every end of the input, longest first: does `literal` stand at its front, and does the rest
of the pattern match what follows?  `after` answers the latter for every end. -/
def closings (input literal : Text) (after : List Bool) : List Bool :=
  List.zipWith (fun t fits => literal.isPrefixOf t && fits) (ends input) (after.drop literal.length)

/-- For every position: does `true` stand at it or later? -/
def someFrom : List Bool → List Bool
  | [] => []
  | b :: rest =>
    let later := someFrom rest
    (b || later.headD false) :: later

/-- For every slot the closings of the literal after it, and for every end of the input whether the
slots and literals match it. -/
def tables (input : Text) : List Text → List (List Bool) × List Bool
  | [] => ([], (ends input).map List.isEmpty)
  | literal :: rest =>
    let (later, after) := tables input rest
    let closing := closings input literal after
    (closing :: later, someFrom closing)

/-- the length of a slot that ends where `closing` allows -/
def slotLength? (m : Capture) (closing : List Bool) : Option Nat :=
  match m with
  | .lazy => closing.idxOf? true
  | .greedy => (closing.reverse.idxOf? true).map (closing.length - 1 - ·)

/-- The texts of the slots from character `position` of the input on. -/
def textsFrom? (m : Capture) (input : Text) (position : Nat) :
    List (List Bool) → List Text → Option (List Text)
  | closing :: closings, literal :: literals => do
    let length ← slotLength? m (closing.drop position)
    let texts ← textsFrom? m input (position + length + literal.length) closings literals
    return (input.drop position).take length :: texts
  | _, _ => some []

/-- The texts of the slots in the first match of the pattern. -/
def patternTexts? (l : Layout) (m : Capture) (input : Text) : Option (List Text) :=
  if l.head.isPrefixOf input then
    let rest := input.drop l.head.length
    let (closings, whole) := tables rest (l.tail.map (·.2))
    if whole.headD false then textsFrom? m rest 0 closings (l.tail.map (·.2)) else none
  else none

/-- The ranges of the slots in the input. -/
def patternRanges? (l : Layout) (m : Capture) (input : Text) : Option (List ByteRange) :=
  (patternTexts? l m input).map l.ranges

/-- Whether the pattern matches; which match comes first does not matter. -/
def patternMatches (l : Layout) (input : Text) : Bool :=
  l.head.isPrefixOf input &&
    (tables (input.drop l.head.length) (l.tail.map (·.2))).2.headD false

end FormatInverse.Layout
