import FormatInverse.Text.Numeral

/-!
# JSON values

`Json` keeps what a reader may have to know of the written form: the members of an object in their
order, with names that occur twice, and a number as its numeral.  The escapes of a string can name
half of a surrogate pair; such a string is well-formed, but it spells no text, and stands as `none`.

`write` writes a value without blanks.
-/

namespace FormatInverse

inductive Json where
  | null
  | bool (b : Bool)
  | number (numeral : Text)
  | string (text : Option Text)
  | array (items : List Json)
  | object (members : List (Option Text × Json))
  deriving Repr

namespace Json

def ofText (t : Text) : Json := .string (some t)

def ofString (s : String) : Json := ofText s.toList

def ofNat (n : Nat) : Json := .number (Text.decimal n)

def ofInt (n : Int) : Json :=
  .number (if n < 0 then '-' :: Text.decimal n.natAbs else Text.decimal n.natAbs)

/-- the value, or `null` where there is none -/
def ofOption (f : α → Json) : Option α → Json
  | none => .null
  | some a => f a

/-- an object with names that are texts -/
def record (members : List (String × Json)) : Json :=
  .object (members.map fun (name, value) => (some name.toList, value))

/-! ## writing -/

/-- the escape of a control character by its code -/
def controlEscape (c : Char) : Text :=
  ['\\', 'u', '0', '0', Nat.digitChar (c.toNat / 16), Nat.digitChar (c.toNat % 16)]

/-- a character as it stands in a string -/
def writeChar (c : Char) : Text :=
  if c = '\x22' then ['\\', '\x22']
  else if c = '\\' then ['\\', '\\']
  else if c = '\x08' then ['\\', 'b']
  else if c = '\t' then ['\\', 't']
  else if c = '\n' then ['\\', 'n']
  else if c = '\x0c' then ['\\', 'f']
  else if c = '\r' then ['\\', 'r']
  else if c.toNat < 0x20 then controlEscape c
  else [c]

/-- a string, with half a surrogate pair where it spells no text -/
def writeString : Option Text → Text
  | some t => '\x22' :: (t.flatMap writeChar ++ ['\x22'])
  | none => '\x22' :: ['\\', 'u', 'd', '8', '0', '0', '\x22']

mutual

def write : Json → Text
  | null => ['n', 'u', 'l', 'l']
  | bool true => ['t', 'r', 'u', 'e']
  | bool false => ['f', 'a', 'l', 's', 'e']
  | number numeral => numeral
  | string text => writeString text
  | array items => '[' :: writeItems items
  | object members => '\x7b' :: writeMembers members

/-- the items of an array and the bracket that closes it -/
def writeItems : List Json → Text
  | [] => [']']
  | [item] => write item ++ [']']
  | item :: items => write item ++ ',' :: writeItems items

/-- the members of an object and the brace that closes it -/
def writeMembers : List (Option Text × Json) → Text
  | [] => ['\x7d']
  | [(name, value)] => writeString name ++ ':' :: (write value ++ ['\x7d'])
  | (name, value) :: members =>
    writeString name ++ ':' :: (write value ++ ',' :: writeMembers members)

end

end Json

end FormatInverse
