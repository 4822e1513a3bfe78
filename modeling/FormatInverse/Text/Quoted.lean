import FormatInverse.Text.Basic
import FormatInverse.Text.Numeral
import FormatInverse.Text.Printable

/-!
# Quoted texts in messages

A text between double quotes, or a character between single quotes, as messages show it.  The quote
around it, the backslash, NUL, tab, carriage return and line feed are written with a backslash; a
character that cannot be seen standing alone is written as its code point in hexadecimal.
-/

namespace FormatInverse.Text

/-- a character by its code point -/
def codePoint (c : Char) : Text :=
  ['\\', 'u', '\x7b'] ++ hexadecimal c.toNat ++ ['\x7d']

/-- one character of a quoted text whose quotes are `quote` -/
def escaped (quote c : Char) : Text :=
  if c = quote then ['\\', c]
  else if c = '\\' then ['\\', '\\']
  else if c = '\x00' then ['\\', '0']
  else if c = '\t' then ['\\', 't']
  else if c = '\r' then ['\\', 'r']
  else if c = '\n' then ['\\', 'n']
  else if isExtending c || isIgnorable c || !isPrintable c then codePoint c
  else [c]

def quoted (t : Text) : Text := ['\x22'] ++ t.flatMap (escaped '\x22') ++ ['\x22']

def quotedChar (c : Char) : Text := ['\x27'] ++ escaped '\x27' c ++ ['\x27']

end FormatInverse.Text
