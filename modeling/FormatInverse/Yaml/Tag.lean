import FormatInverse.Text.Numeral
import FormatInverse.Yaml.Cursor

/-!
# YAML tags

A tag is a sequence of octets.  It is written as a handle and a suffix, `!name`, `!!name` or
`!handle!name`, where the handle stands for the first octets of the tag, or as a whole in angle
brackets, `!<name>`.  In a suffix a percent sign and two hexadecimal digits are an octet, and the
octets of one character stand together.  A tag that starts with an exclamation mark is of the
document's own.
-/

namespace FormatInverse.Yaml

abbrev Octets := List UInt8

/-- the octets of a text of ASCII characters -/
def octets (t : Text) : Octets := t.map fun c => UInt8.ofNat c.toNat

/-- a tag as it is written; the handle is empty if the suffix is the whole tag -/
structure Tag where
  handle : Text
  suffix : Octets
  deriving DecidableEq, Repr

namespace Tag

/-- the tags that the format itself knows -/
def standard (name : String) : Octets := octets ("tag:yaml.org,2002:" ++ name).toList

/-- The name of a tag that is of the document's own; a tag that is only a mark is its own name. -/
def ownName? (tag : Octets) : Option Text :=
  match tag with
  | [] => none
  | mark :: name =>
    if mark = 33 then
      (String.fromUTF8? ⟨(if name.isEmpty then tag else name).toArray⟩).map String.toList
    else none

/-! ## handles -/

/-- A handle: an exclamation mark, alone or with a name and another mark behind it.  Where the other
mark is missing the name is the start of a suffix, and `strict` refuses it. -/
def readHandle? (strict : Bool) (c : Cursor) : Option (Text × Cursor) :=
  if c.isAt '!' then
    let name := (c.rest.drop 1).takeWhile isNameChar
    let after := c.skip (1 + name.length)
    if after.isAt '!' then some ('!' :: (name ++ ['!']), after.skip 1)
    else if strict && !name.isEmpty then none
    else some ('!' :: name, after)
  else none

/-! ## suffixes -/

/-- the characters of a suffix; a wide one may hold those of flow sequences -/
def isSuffixChar (wide : Bool) (c : Char) : Bool :=
  isNameChar c
    || [';', '/', '?', ':', '@', '&', '=', '+', '$', '.', '!', '~', '*', '\x27', '(',
      ')'].contains c
    || (wide && [',', '[', ']'].contains c)

/-- how many octets follow the first octet of a character -/
def following? (n : Nat) : Option Nat :=
  if n < 0x80 then some 0
  else if n < 0xC0 then none
  else if n < 0xE0 then some 1
  else if n < 0xF0 then some 2
  else if n < 0xF8 then some 3
  else none

/-- The octets of a suffix, of which `more` still belong to an escaped character, and the rest. -/
def suffixOctets? (wide : Bool) (more : Nat) : Text → Option (Octets × Text)
  | [] => if more = 0 then some ([], []) else none
  | c :: rest =>
    if c = '%' then
      match rest with
      | a :: b :: rest => do
        let n := 16 * (← Text.hexValue? a) + (← Text.hexValue? b)
        let more ←
          if more = 0 then following? n
          else if 0x80 ≤ n ∧ n < 0xC0 then some (more - 1)
          else none
        let (tail, rest) ← suffixOctets? wide more rest
        return (UInt8.ofNat n :: tail, rest)
      | _ => none
    else if more ≠ 0 then none
    else if isSuffixChar wide c then do
      let (tail, rest) ← suffixOctets? wide 0 rest
      return (UInt8.ofNat c.toNat :: tail, rest)
    else some ([], c :: rest)

/-- A suffix that begins with `start`, up to its first zero octet. -/
def readSuffix? (wide : Bool) (start : Octets) (c : Cursor) : Option (Octets × Cursor) := do
  let (tail, rest) ← suffixOctets? wide 0 c.rest
  return ((start ++ tail).takeWhile (· != 0), c.skip (c.rest.length - rest.length))

/-- A suffix that is written with at least one character. -/
def readFullSuffix? (wide : Bool) (c : Cursor) : Option (Octets × Cursor) :=
  (readSuffix? wide [] c).filter fun (_, after) => after.rest.length < c.rest.length

/-! ## tags -/

def readAddress? (c : Cursor) : Option (Tag × Cursor) := do
  let (suffix, after) ← readFullSuffix? true (c.skip 2)
  if after.isAt '>' then return (⟨[], suffix⟩, after.skip 1) else none

def readShort? (c : Cursor) : Option (Tag × Cursor) := do
  let (handle, after) ← readHandle? false c
  if 1 < handle.length ∧ handle.getLast? = some '!' then
    let (suffix, after) ← readFullSuffix? false after
    return (⟨handle, suffix⟩, after)
  else
    let (suffix, after) ← readSuffix? false (octets (handle.drop 1)) after
    return (if suffix.isEmpty then ⟨[], octets ['!']⟩ else ⟨['!'], suffix⟩, after)

/-- A tag and the place behind it, where a blank has to stand, or a comma in a flow collection. -/
def read? (flow : Bool) (c : Cursor) : Option (Tag × Cursor) := do
  let (tag, after) ← if (c.skip 1).isAt '<' then readAddress? c else readShort? c
  if startsBlank after.rest || (flow && after.isAt ',') then return (tag, after) else none

/-- A handle and the octets that it stands for, after a blank. -/
def readMeaning? (c : Cursor) : Option (Tag × Cursor) := do
  let (handle, after) ← readHandle? true c.skipBlanks
  if (after.rest.head?.map isBlank).getD false then
    let (suffix, after) ← readFullSuffix? true after.skipBlanks
    if startsBlank after.rest then return (⟨handle, suffix⟩, after) else none
  else none

end Tag

end FormatInverse.Yaml
