import FormatInverse.Json.Basic

/-!
# Reading JSON

`Json.read?` reads a whole text as one value with blanks around it.  Numbers have no leading zero
and no bare point, strings no control characters, and nothing follows the value.  A value holds
fewer values than the text has characters, so the length of the text bounds the depth of the
recursion.
-/

namespace FormatInverse.Json

def isBlank (c : Char) : Bool := c == ' ' || c == '\t' || c == '\n' || c == '\r'

def skipBlank (t : Text) : Text := t.dropWhile isBlank

/-! ## numbers -/

/-- the first digits of a text, at least one, and the rest -/
def readDigits? (t : Text) : Option (Text × Text) :=
  let digits := t.takeWhile Char.isDigit
  if digits.isEmpty then none else some (digits, t.dropWhile Char.isDigit)

/-- an integer part: a zero, or digits that do not start with one -/
def readInteger? (t : Text) : Option (Text × Text) :=
  match t with
  | '0' :: rest => some (['0'], rest)
  | _ => readDigits? t

/-- the point and the digits after it, if there is a point -/
def readFraction? (t : Text) : Option (Text × Text) :=
  match t with
  | '.' :: rest => do
    let (digits, rest) ← readDigits? rest
    return ('.' :: digits, rest)
  | _ => some ([], t)

/-- the exponent, if there is one -/
def readExponent? (t : Text) : Option (Text × Text) :=
  match t with
  | c :: rest =>
    if c = 'e' ∨ c = 'E' then
      match rest with
      | s :: after =>
        if s = '+' ∨ s = '-' then do
          let (digits, rest) ← readDigits? after
          return (c :: s :: digits, rest)
        else do
          let (digits, rest) ← readDigits? rest
          return (c :: digits, rest)
      | [] => none
    else some ([], t)
  | [] => some ([], [])

/-- a numeral and the rest -/
def readNumeral? (t : Text) : Option (Text × Text) := do
  let (sign, t) := match t with
    | '-' :: rest => (['-'], rest)
    | _ => ([], t)
  let (integer, t) ← readInteger? t
  let (fraction, t) ← readFraction? t
  let (exponent, t) ← readExponent? t
  return (sign ++ integer ++ fraction ++ exponent, t)

/-! ## strings -/

/-- the code of a character that is escaped by a letter or by itself -/
def escapeCode? (c : Char) : Option Nat :=
  if c = '\x22' ∨ c = '\\' ∨ c = '/' then some c.toNat
  else if c = 'b' then some 8
  else if c = 'f' then some 12
  else if c = 'n' then some 10
  else if c = 'r' then some 13
  else if c = 't' then some 9
  else none

def hexCode? (a b c d : Char) : Option Nat := do
  return 4096 * (← Text.hexValue? a) + 256 * (← Text.hexValue? b) + 16 * (← Text.hexValue? c)
    + (← Text.hexValue? d)

/-- the codes of a string up to its closing quote, each escape one code -/
def readCodes? : Text → Option (List Nat × Text)
  | [] => none
  | c :: rest =>
    if c = '\x22' then some ([], rest)
    else if c = '\\' then
      match rest with
      | e :: rest =>
        if e = 'u' then
          match rest with
          | a :: b :: c :: d :: rest => do
            let code ← hexCode? a b c d
            let (codes, rest) ← readCodes? rest
            return (code :: codes, rest)
          | _ => none
        else do
          let code ← escapeCode? e
          let (codes, rest) ← readCodes? rest
          return (code :: codes, rest)
      | [] => none
    else if c.toNat < 0x20 then none
    else do
      let (codes, rest) ← readCodes? rest
      return (c.toNat :: codes, rest)

def isLeading (n : Nat) : Bool := 0xD800 ≤ n && n ≤ 0xDBFF

def isTrailing (n : Nat) : Bool := 0xDC00 ≤ n && n ≤ 0xDFFF

/-- The text that codes spell, surrogates in pairs. -/
def spell? : List Nat → Option Text
  | [] => some []
  | n :: rest =>
    if isLeading n then
      match rest with
      | m :: rest =>
        if isTrailing m then
          (spell? rest).map (Char.ofNat (0x10000 + 0x400 * (n - 0xD800) + (m - 0xDC00)) :: ·)
        else none
      | [] => none
    else if isTrailing n then none
    else (spell? rest).map (Char.ofNat n :: ·)

/-- a string whose opening quote is read already -/
def readString? (t : Text) : Option (Option Text × Text) :=
  (readCodes? t).map fun (codes, rest) => (spell? codes, rest)

/-! ## values -/

/-- the text after `word`, if it starts with it -/
def strip? (word t : Text) : Option Text :=
  if word.isPrefixOf t then some (t.drop word.length) else none

mutual

/-- A value with blanks before it. -/
def readValue? : Nat → Text → Option (Json × Text)
  | 0, _ => none
  | fuel + 1, t =>
    match skipBlank t with
    | [] => none
    | c :: rest =>
      if c = '\x22' then (readString? rest).map fun (s, rest) => (.string s, rest)
      else if c = '[' then
        match skipBlank rest with
        | ']' :: after => some (.array [], after)
        | _ => (readItems? fuel rest).map fun (items, rest) => (.array items, rest)
      else if c = '\x7b' then
        match skipBlank rest with
        | '\x7d' :: after => some (.object [], after)
        | _ => (readMembers? fuel rest).map fun (members, rest) => (.object members, rest)
      else if c = 'n' then (strip? ['u', 'l', 'l'] rest).map fun rest => (.null, rest)
      else if c = 't' then (strip? ['r', 'u', 'e'] rest).map fun rest => (.bool true, rest)
      else if c = 'f' then (strip? ['a', 'l', 's', 'e'] rest).map fun rest => (.bool false, rest)
      else (readNumeral? (c :: rest)).map fun (numeral, rest) => (.number numeral, rest)

/-- The items of an array, at least one, and the bracket that closes it. -/
def readItems? : Nat → Text → Option (List Json × Text)
  | 0, _ => none
  | fuel + 1, t => do
    let (item, rest) ← readValue? fuel t
    match skipBlank rest with
    | ',' :: rest =>
      let (items, rest) ← readItems? fuel rest
      return (item :: items, rest)
    | ']' :: rest => return ([item], rest)
    | _ => none

/-- The members of an object, at least one, and the brace that closes it. -/
def readMembers? : Nat → Text → Option (List (Option Text × Json) × Text)
  | 0, _ => none
  | fuel + 1, t =>
    match skipBlank t with
    | '\x22' :: rest => do
      let (name, rest) ← readString? rest
      match skipBlank rest with
      | ':' :: rest =>
        let (value, rest) ← readValue? fuel rest
        match skipBlank rest with
        | ',' :: rest =>
          let (members, rest) ← readMembers? fuel rest
          return ((name, value) :: members, rest)
        | '\x7d' :: rest => return ([(name, value)], rest)
        | _ => none
      | _ => none
    | _ => none

end

/-- The value that a whole text holds. -/
def read? (t : Text) : Option Json := do
  let (value, rest) ← readValue? (2 * t.length + 1) t
  if (skipBlank rest).isEmpty then return value else none

end FormatInverse.Json
