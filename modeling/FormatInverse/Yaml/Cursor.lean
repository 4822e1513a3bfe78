import FormatInverse.Text.Basic

/-!
# Places in a YAML text

A `Mark` counts what stands before a place, a `Cursor` is a place with the text from there on.
Every line break of the text is one character here.
-/

namespace FormatInverse.Yaml

/-! ## characters -/

def isBlank (c : Char) : Bool := c == ' ' || c == '\t'

def isBreak (c : Char) : Bool := c == '\n'

/-- the characters of names -/
def isNameChar (c : Char) : Bool := c.isAlphanum || c == '-' || c == '_'

def isFlowChar (c : Char) : Bool := [',', '[', ']', '\x7b', '\x7d'].contains c

/-- whether a text starts with a blank or a line break, or is empty -/
def startsBlank : Text → Bool
  | [] => true
  | c :: _ => isBlank c || isBreak c

/-! ## marks -/

structure Mark where
  /-- the bytes before the place -/
  index : Nat
  line : Nat
  /-- the characters before it in its line -/
  column : Nat
  deriving DecidableEq, Repr

/-- the mark behind a character -/
def Mark.after (m : Mark) (c : Char) : Mark :=
  if isBreak c then ⟨m.index + 1, m.line + 1, 0⟩
  else ⟨m.index + c.utf8Size, m.line, m.column + 1⟩

/-! ## cursors -/

structure Cursor where
  mark : Mark
  rest : Text
  deriving DecidableEq, Repr

namespace Cursor

def start (t : Text) : Cursor := ⟨⟨0, 0, 0⟩, t⟩

/-- the place behind the text `t`, which stands at the place -/
def past (c : Cursor) (t : Text) : Cursor := ⟨t.foldl Mark.after c.mark, c.rest.drop t.length⟩

/-- the place behind `n` characters -/
def skip (c : Cursor) (n : Nat) : Cursor := c.past (c.rest.take n)

def skipWhile (p : Char → Bool) (c : Cursor) : Cursor := c.past (c.rest.takeWhile p)

def skipBlanks (c : Cursor) : Cursor := c.skipWhile isBlank

/-- whether `d` stands at the place -/
def isAt (c : Cursor) (d : Char) : Bool := c.rest.head? == some d

/-- whether the line at the place is a marker, written as three times the character `i` -/
def isAtMarker (c : Cursor) (i : Char) : Bool :=
  c.mark.column == 0 && (List.replicate 3 i).isPrefixOf c.rest && startsBlank (c.rest.drop 3)

/-- whether the line at the place starts or ends a document -/
def isAtLimit (c : Cursor) : Bool := c.isAtMarker '-' || c.isAtMarker '.'

/-- The place in the next line, if there is nothing but blanks and a comment before it. -/
def endLine? (c : Cursor) : Option Cursor :=
  let c := c.skipBlanks
  let c := if c.isAt '#' then c.skipWhile (!isBreak ·) else c
  if c.rest.isEmpty || c.isAt '\n' then some (c.skip 1) else none

end Cursor

end FormatInverse.Yaml
