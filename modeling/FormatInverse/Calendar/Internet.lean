import FormatInverse.Calendar.Fields
import FormatInverse.Calendar.Scan

/-!
# Date-times of internet standards

`readTimestamp?` reads the fixed form of timestamps, `2017-10-30T11:00:16.5-02:00` (RFC 3339), and
`readMailDate?` the date of a mail, `Mon, 30 Oct 2017 11:00:16 -0200` (RFC 2822).  Both give the
date-time in Greenwich.
-/

namespace FormatInverse.Calendar

/-! ## timestamps -/

/-- the letter or the space between date and time -/
def scanDateEnd? : Text → Option Text
  | c :: rest => if c = 'T' ∨ c = 't' ∨ c = ' ' then some rest else none
  | [] => none

def scanTimestampDate? (f : Fields) (t : Text) : Option (Fields × Text) := do
  let (year, t) ← scanNumber? 4 4 t
  let t ← scanChar? '-' t
  let (month, t) ← scanNumber? 2 2 t
  let t ← scanChar? '-' t
  let (day, t) ← scanNumber? 2 2 t
  let f ← f.withYear? year
  let f ← f.withMonth? month
  return (← f.withDay? day, t)

def scanTimestampTime? (f : Fields) (t : Text) : Option (Fields × Text) := do
  let (hour, t) ← scanNumber? 2 2 t
  let t ← scanChar? ':' t
  let (minute, t) ← scanNumber? 2 2 t
  let t ← scanChar? ':' t
  let (second, t) ← scanNumber? 2 2 t
  let f ← f.withHour24? hour
  let f ← f.withMinute? minute
  return (← f.withSecond? second, t)

/-- a point and a fraction of the second, or nothing -/
def scanTimestampFraction? (f : Fields) (t : Text) : Option (Fields × Text) :=
  match t with
  | '.' :: rest => do
    let (v, rest) ← scanFraction? rest
    return (← f.withNanosecond? v, rest)
  | _ => some (f, t)

/-- a Z, or an offset with a colon -/
def scanTimestampOffset? (f : Fields) (t : Text) : Option (Fields × Text) := do
  match scanZulu? t with
  | some rest => return (← f.withOffset? 0, rest)
  | none =>
    let (v, rest) ← scanOffset? true false (scanChar? ':') t
    return (← f.withOffset? v, rest)

def readTimestamp? (t : Text) : Option DateTime := do
  let (f, t) ← scanTimestampDate? .empty t
  let t ← scanDateEnd? t
  let (f, t) ← scanTimestampTime? f t
  let (f, t) ← scanTimestampFraction? f t
  let (f, t) ← scanTimestampOffset? f t
  if t.isEmpty then f.universal? else none

/-! ## dates of mails -/

/-- a weekday and a comma, if the text starts with a weekday -/
def scanMailWeekday? (f : Fields) (t : Text) : Option (Fields × Text) :=
  match scanShortName? weekdayNames t with
  | none => some (f, t)
  | some (i, rest) => do
    let rest ← scanChar? ',' rest
    return (← f.withWeekday? i, rest)

/-- the year that a number stands for when it is written with so many digits -/
def mailYear (width n : Nat) : Nat :=
  if width = 2 then (if n < 50 then 2000 + n else 1900 + n)
  else if width = 3 then 1900 + n
  else n

/-- a colon, two digits and their place, or nothing -/
def scanMailSecond? (f : Fields) (t : Text) : Option (Fields × Text) :=
  match scanChar? ':' (Text.trimStart t) with
  | none => some (f, t)
  | some rest => do
    let (v, rest) ← scanNumber? 2 2 rest
    return (← f.withSecond? v, rest)

def isLetter (c : Char) : Bool := ('a' ≤ c && c ≤ 'z') || ('A' ≤ c && c ≤ 'Z')

/-- the zones that have a name, with their hours east of Greenwich -/
def zones : List (Text × Int) :=
  [("gmt", 0), ("ut", 0), ("z", 0), ("edt", -4), ("est", -5), ("cdt", -5), ("cst", -6),
   ("mdt", -6), ("mst", -7), ("pdt", -7), ("pst", -8)].map fun (name, hours) =>
    (name.toList, hours)

/-- the minutes east of Greenwich of a zone by its name; the letters of military zones but J count
as zero -/
def zoneMinutes? (name : Text) : Option Int :=
  match zones.lookup (name.map Char.toLower) with
  | some hours => some (60 * hours)
  | none => if name.length = 1 ∧ name.map Char.toLower ≠ ['j'] then some 0 else none

def scanMailZone? (t : Text) : Option (Int × Text) :=
  let name := t.takeWhile isLetter
  if name.isEmpty then scanOffset? false false some t
  else (zoneMinutes? name).map (·, t.dropWhile isLetter)

/-- The rest of a comment in `depth` parentheses, of which the last character may have been a
backslash. -/
def skipComment? (escaped : Bool) (depth : Nat) : Text → Option Text
  | [] => none
  | c :: rest =>
    if escaped then skipComment? false depth rest
    else if c = '\\' then skipComment? true depth rest
    else if c = '(' then skipComment? false (depth + 1) rest
    else if c = ')' then (if depth ≤ 1 then some rest else skipComment? false (depth - 1) rest)
    else skipComment? false depth rest

/-- the text after a comment with white space before it -/
def scanComment? (t : Text) : Option Text :=
  (scanChar? '(' (Text.trimStart t)).bind (skipComment? false 1)

/-- The text after all comments; `fuel` bounds their number. -/
def skipComments : Nat → Text → Text
  | 0, t => t
  | fuel + 1, t =>
    match scanComment? t with
    | some rest => skipComments fuel rest
    | none => t

def scanMailDate? (f : Fields) (t : Text) : Option (Fields × Text) := do
  let (f, t) ← scanMailWeekday? f (Text.trimStart t)
  let (day, t) ← scanNumber? 1 2 (Text.trimStart t)
  let f ← f.withDay? day
  let (i, t) ← scanShortName? monthNames (← scanSpace? t)
  let f ← f.withMonth? (i + 1)
  let (digits, t) ← scanLongNumber? 2 (← scanSpace? t)
  return (← f.withYear? (mailYear digits.length (Text.value digits)), t)

def scanMailTime? (f : Fields) (t : Text) : Option (Fields × Text) := do
  let (hour, t) ← scanNumber? 2 2 t
  let f ← f.withHour24? hour
  let t ← scanChar? ':' (Text.trimStart t)
  let (minute, t) ← scanNumber? 2 2 (Text.trimStart t)
  let f ← f.withMinute? minute
  scanMailSecond? f t

def readMailDate? (t : Text) : Option DateTime := do
  let (f, t) ← scanMailDate? .empty t
  let (f, t) ← scanMailTime? f (← scanSpace? t)
  let (offset, t) ← scanMailZone? (← scanSpace? t)
  let f ← f.withOffset? offset
  if (skipComments t.length t).isEmpty then f.universal? else none

end FormatInverse.Calendar
