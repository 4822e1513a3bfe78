import FormatInverse.Text.CharClass
import FormatInverse.Text.Basic

/-!
# White space

The characters with the Unicode property White_Space, and texts without them at their ends.
-/

namespace FormatInverse

/-- the white space characters -/
def CharClass.blank : CharClass :=
  [(0x9, 0xD), (0x20, 0x20), (0x85, 0x85), (0xA0, 0xA0), (0x1680, 0x1680), (0x2000, 0x200A),
   (0x2028, 0x2029), (0x202F, 0x202F), (0x205F, 0x205F), (0x3000, 0x3000)]

namespace Text

def isBlank (c : Char) : Bool := CharClass.blank.has c

/-- the text from its first character that is no white space -/
def trimStart (t : Text) : Text := t.dropWhile isBlank

/-- the text without white space at either end -/
def trim (t : Text) : Text := (trimStart (trimStart t).reverse).reverse

end Text

end FormatInverse
