import FormatInverse.Calendar.Format

/-!
# Custom hints

A custom hint describes how a date-time is written: a run of one of the letters `yMdHhmsfFtzK`
stands for a field, by its length for one form of it; quoted characters, a character after a
backslash and all other characters stand for themselves, but a percent sign is passed over.
`format?` translates a hint into a date format.
-/

namespace FormatInverse.Calendar.Hint

/-! ## the pieces of a hint -/

inductive Piece where
  | literal (c : Char)
  /-- a run of a letter, and the number of letters -/
  | run (letter : Char) (length : Nat)
  /-- nothing, but the end of a run -/
  | gap
  deriving DecidableEq, Repr

/-- how the next character of a hint is to be taken -/
inductive Mode where
  | plain
  | escaped
  | quoted (quote : Char)
  deriving DecidableEq, Repr

def isLetter (c : Char) : Bool :=
  ['y', 'M', 'd', 'H', 'h', 'm', 's', 'f', 'F', 't', 'z', 'K'].contains c

def isQuote (c : Char) : Bool := c == '\x27' || c == '\x22'

/-- one more letter before the pieces -/
def addLetter (c : Char) : List Piece → List Piece
  | .run d n :: rest => if c = d then .run d (n + 1) :: rest else .run c 1 :: .run d n :: rest
  | rest => .run c 1 :: rest

/-- The pieces of a hint, if its quotes are closed and no backslash ends it. -/
def pieces? : Mode → Text → Option (List Piece)
  | .plain, [] => some []
  | _, [] => none
  | .plain, c :: rest =>
    if isQuote c then (pieces? (.quoted c) rest).map (.gap :: ·)
    else if c = '\\' then pieces? .escaped rest
    else if c = '%' then (pieces? .plain rest).map (.gap :: ·)
    else if isLetter c then (pieces? .plain rest).map (addLetter c)
    else (pieces? .plain rest).map (.literal c :: ·)
  | .escaped, c :: rest => (pieces? .plain rest).map (.literal c :: ·)
  | .quoted q, c :: rest =>
    if c = q then pieces? .plain rest else (pieces? (.quoted q) rest).map (.literal c :: ·)

/-! ## the format of a hint -/

/-- the field of a run of letters that does not follow a point -/
def field? (letter : Char) (length : Nat) : Option Field :=
  match letter, length with
  | 'y', n => some (if n ≤ 2 then .yearOfCentury else .year)
  | 'M', n => some (if n ≤ 2 then .month else .monthName (n != 3))
  | 'd', n => some (if n ≤ 2 then .day else .weekdayName (n != 3))
  | 'H', n => if n ≤ 2 then some .hour24 else none
  | 'h', n => if n ≤ 2 then some .hour12 else none
  | 'm', n => if n ≤ 2 then some .minute else none
  | 's', n => if n ≤ 2 then some .second else none
  | 't', n => if n ≤ 2 then some .half else none
  | 'z', n => if n ≤ 2 then some (.offset true) else if n = 3 then some (.offset false) else none
  | 'K', n => if n = 1 then some (.offset false) else none
  | c, n =>
    if (c = 'f' ∨ c = 'F') ∧ (n = 3 ∨ n = 6 ∨ n = 9) then some (.digits n) else none

/-- a character as a format writes it -/
def literal (c : Char) : Text := if c = '%' then ['%', '%'] else [c]

/-- The format with one more piece.  Letters for a fraction take the place of a point that the
format ends in. -/
def addPiece? (format : Text) : Piece → Option Text
  | .gap => some format
  | .literal c => some (format ++ literal c)
  | .run c n =>
    if (c = 'f' ∨ c = 'F') ∧ format.getLast? = some '.' then
      some (format.dropLast ++ Field.fraction.written)
    else (field? c n).map fun f => format ++ f.written

/-- the format of a custom hint -/
def format? (hint : Text) : Option Text :=
  (pieces? .plain hint).bind fun pieces => pieces.foldlM addPiece? []

end FormatInverse.Calendar.Hint
