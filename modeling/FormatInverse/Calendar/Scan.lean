import FormatInverse.Text.Blank
import FormatInverse.Text.Numeral

/-!
# Scanning the parts of a date-time

Each scanner takes its part off the front of a text and gives its value and the rest.
-/

namespace FormatInverse.Calendar

/-- a number of at least `lo` and at most `hi` digits -/
def scanNumber? (lo hi : Nat) (t : Text) : Option (Nat × Text) :=
  let digits := (t.take hi).takeWhile Char.isDigit
  if lo ≤ digits.length then some (Text.value digits, t.drop digits.length) else none

/-- a number of at least `lo` digits -/
def scanLongNumber? (lo : Nat) (t : Text) : Option (Text × Text) :=
  let digits := t.takeWhile Char.isDigit
  if lo ≤ digits.length then some (digits, t.dropWhile Char.isDigit) else none

/-- the nanoseconds of the first nine digits of a fraction; more digits are passed over -/
def scanFraction? (t : Text) : Option (Nat × Text) :=
  let digits := (t.take 9).takeWhile Char.isDigit
  if digits.isEmpty then none
  else some (Text.value digits * Nat.pow 10 (9 - digits.length), t.dropWhile Char.isDigit)

/-- the nanoseconds of a fraction of exactly `n` digits -/
def scanFixedFraction? (n : Nat) (t : Text) : Option (Nat × Text) :=
  (scanNumber? n n t).map fun (v, rest) => (v * Nat.pow 10 (9 - n), rest)

def scanChar? (c : Char) : Text → Option Text
  | d :: rest => if c = d then some rest else none
  | [] => none

/-- white space, at least one character of it -/
def scanSpace? : Text → Option Text
  | c :: rest => if Text.isBlank c then some (Text.trimStart rest) else none
  | [] => none

/-! ## names -/

/-- the text after `word`, whatever the case of its letters -/
def scanWord? (word t : Text) : Option Text :=
  if (t.take word.length).map Char.toLower == word then some (t.drop word.length) else none

/-- the place of the first of several words that the text starts with -/
def scanOneOf? : List Text → Text → Option (Nat × Text)
  | [], _ => none
  | word :: words, t =>
    match scanWord? word t with
    | some rest => some (0, rest)
    | none => (scanOneOf? words t).map fun (i, rest) => (i + 1, rest)

/-- the names of the months, as far as they are cut, and the rest of them -/
def monthNames : List (Text × Text) :=
  [("jan", "uary"), ("feb", "ruary"), ("mar", "ch"), ("apr", "il"), ("may", ""), ("jun", "e"),
   ("jul", "y"), ("aug", "ust"), ("sep", "tember"), ("oct", "ober"), ("nov", "ember"),
   ("dec", "ember")].map fun (short, more) => (short.toList, more.toList)

/-- the names of the weekdays from Monday on, as far as they are cut, and the rest of them -/
def weekdayNames : List (Text × Text) :=
  [("mon", "day"), ("tue", "sday"), ("wed", "nesday"), ("thu", "rsday"), ("fri", "day"),
   ("sat", "urday"), ("sun", "day")].map fun (short, more) => (short.toList, more.toList)

/-- the place of a name that is cut -/
def scanShortName? (names : List (Text × Text)) (t : Text) : Option (Nat × Text) :=
  scanOneOf? (names.map (·.1)) t

/-- the place of a name that is cut or written out -/
def scanName? (names : List (Text × Text)) (t : Text) : Option (Nat × Text) := do
  let (i, rest) ← scanShortName? names t
  let (_, more) ← names[i]?
  return (i, (scanWord? more rest).getD rest)

/-! ## offsets -/

/-- a plus or minus sign; the sign of minus may also be U+2212 where `wide` says so -/
def scanSign? (wide : Bool) : Text → Option (Int × Text)
  | c :: rest =>
    if c = '+' then some (1, rest)
    else if c = '-' ∨ (wide ∧ c = '\u2212') then some (-1, rest)
    else none
  | [] => none

/-- Two digits for the minutes of an hour. -/
def scanMinutes? (t : Text) : Option (Nat × Text) :=
  (scanNumber? 2 2 t).filter fun (v, _) => v < 60

/-- An offset in minutes: a sign, two digits for hours, a separator, two digits for minutes.  Where
`short` says so, the minutes may be left out at the end of the text. -/
def scanOffset? (wide short : Bool) (separator : Text → Option Text) (t : Text) :
    Option (Int × Text) := do
  let (sign, t) ← scanSign? wide t
  let (hours, t) ← scanNumber? 2 2 t
  let t ← separator t
  if short ∧ t = [] then return (sign * (60 * hours), [])
  let (minutes, t) ← scanMinutes? t
  return (sign * (60 * hours + minutes), t)

/-- any colons and white space -/
def skipColons (t : Text) : Option Text := some (t.dropWhile fun c => c == ':' || Text.isBlank c)

/-- the letter of a zero offset -/
def scanZulu? : Text → Option Text
  | c :: rest => if c = 'Z' ∨ c = 'z' then some rest else none
  | [] => none

end FormatInverse.Calendar
