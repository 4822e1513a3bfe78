import FormatInverse.Layout.Delimited
import FormatInverse.Layout.Pattern

/-!
# Matching a layout under a strategy
-/

namespace FormatInverse.Layout

/-- The ranges of the slots in the input, `none` where the layout does not match it. -/
def ranges? (l : Layout) (s : Strategy) (m : Capture) (input : Text) : Option (List ByteRange) :=
  match s with
  | .regex => patternRanges? l m input
  | .delimited => delimitedRanges? l m input

/-- Whether the layout matches the input. -/
def isMatch (l : Layout) (s : Strategy) (m : Capture) (input : Text) : Bool :=
  match s with
  | .regex => patternMatches l input
  | .delimited => (delimitedRanges? l m input).isSome

/-- the text of the pattern, where there is one -/
def source? (l : Layout) (s : Strategy) (m : Capture) : Option Text :=
  match s with
  | .regex => some (source l m)
  | .delimited => none

end FormatInverse.Layout
