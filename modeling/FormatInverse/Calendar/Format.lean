import FormatInverse.Calendar.Fields
import FormatInverse.Calendar.Scan

/-!
# Date formats

A date format is a text in which a percent sign and a code stand for a field, and every other
character for itself; white space stands for any white space, also for none.  `items` takes a format
apart, and `Fields.read?` reads a text by it, which has to be used up.
-/

namespace FormatInverse.Calendar

/-- the fields that a format can name -/
inductive Field where
  /-- a year of up to four digits, or of any number of digits after a sign -/
  | year
  | yearOfCentury
  | month
  | monthName (long : Bool)
  | day
  | weekdayName (long : Bool)
  | hour24
  | hour12
  | minute
  | second
  /-- the half of the day, am or pm -/
  | half
  /-- a point and a fraction of the second, or nothing -/
  | fraction
  /-- a fraction of the second of exactly so many digits, without a point -/
  | digits (count : Nat)
  /-- an offset; a lenient one may be a Z or lack its minutes -/
  | offset (lenient : Bool)
  deriving DecidableEq, Repr

inductive Item where
  | literal (c : Char)
  | field (f : Field)
  /-- a percent sign without a known code -/
  | unknown
  deriving DecidableEq, Repr

/-! ## formats as text -/

/-- the codes of the fields after the percent sign -/
def codes : List (Text × Field) :=
  [("Y", .year), ("y", .yearOfCentury), ("m", .month), ("b", .monthName false),
   ("B", .monthName true), ("d", .day), ("a", .weekdayName false), ("A", .weekdayName true),
   ("H", .hour24), ("I", .hour12), ("M", .minute), ("S", .second), ("p", .half),
   (".f", .fraction), ("3f", .digits 3), ("6f", .digits 6), ("9f", .digits 9),
   ("#z", .offset true), (":z", .offset false)].map fun (code, f) => (code.toList, f)

/-- the way a format writes a field -/
def Field.written (f : Field) : Text :=
  '%' :: ((codes.find? fun entry => entry.2 = f).map (·.1)).getD []

/-- What stands after a percent sign, and how many characters it takes. -/
def coded? (t : Text) : Option (Item × Nat) :=
  match t with
  | '%' :: _ => some (.literal '%', 1)
  | _ => (codes.find? fun entry => entry.1.isPrefixOf t).map fun (code, f) =>
      (.field f, code.length)

/-- the items of a format, up to the first unknown one -/
def items (t : Text) : List Item :=
  match t with
  | [] => []
  | c :: rest =>
    if c = '%' then
      match coded? rest with
      | some (item, n) => item :: items (rest.drop n)
      | none => [.unknown]
    else .literal c :: items rest
  termination_by t.length
  decreasing_by
    · simp only [List.length_drop, List.length_cons]
      omega
    · simp

/-! ## reading by a format -/

/-- a number of one or two digits, after any white space -/
def scanPair? (t : Text) : Option (Nat × Text) := scanNumber? 1 2 (Text.trimStart t)

def scanYear? (t : Text) : Option (Int × Text) :=
  match Text.trimStart t with
  | '-' :: rest => (scanLongNumber? 1 rest).map fun (v, rest) => (-(Text.value v : Int), rest)
  | '+' :: rest => (scanLongNumber? 1 rest).map fun (v, rest) => ((Text.value v : Int), rest)
  | t => (scanNumber? 1 4 t).map fun (v, rest) => ((v : Int), rest)

def scanHalf? (t : Text) : Option (Nat × Text) := scanOneOf? [['a', 'm'], ['p', 'm']] t

def scanLenientOffset? (t : Text) : Option (Int × Text) :=
  match scanZulu? t with
  | some rest => some (0, rest)
  | none => scanOffset? true true skipColons t

namespace Field

/-- The fields after reading this one off the text, and the rest of the text. -/
def scan? (field : Field) (f : Fields) (t : Text) : Option (Fields × Text) := do
  match field with
  | year =>
    let (v, rest) ← scanYear? t
    return (← f.withYear? v, rest)
  | yearOfCentury =>
    let (v, rest) ← scanPair? t
    return (← f.withYearOfCentury? v, rest)
  | month =>
    let (v, rest) ← scanPair? t
    return (← f.withMonth? v, rest)
  | monthName long =>
    let (i, rest) ← if long then scanName? monthNames t else scanShortName? monthNames t
    return (← f.withMonth? (i + 1), rest)
  | day =>
    let (v, rest) ← scanPair? t
    return (← f.withDay? v, rest)
  | weekdayName long =>
    let (i, rest) ← if long then scanName? weekdayNames t else scanShortName? weekdayNames t
    return (← f.withWeekday? i, rest)
  | hour24 =>
    let (v, rest) ← scanPair? t
    return (← f.withHour24? v, rest)
  | hour12 =>
    let (v, rest) ← scanPair? t
    return (← f.withHour12? v, rest)
  | minute =>
    let (v, rest) ← scanPair? t
    return (← f.withMinute? v, rest)
  | second =>
    let (v, rest) ← scanPair? t
    return (← f.withSecond? v, rest)
  | half =>
    let (v, rest) ← scanHalf? t
    return (← f.withHalf? v, rest)
  | fraction =>
    match t with
    | '.' :: rest =>
      let (v, rest) ← scanFraction? rest
      return (← f.withNanosecond? v, rest)
    | _ => return (f, t)
  | digits count =>
    let (v, rest) ← scanFixedFraction? count t
    return (← f.withNanosecond? v, rest)
  | offset lenient =>
    let t := Text.trimStart t
    let (v, rest) ←
      if lenient then scanLenientOffset? t else scanOffset? true false skipColons t
    return (← f.withOffset? v, rest)

end Field

/-- The fields after reading an item off the text, and the rest of the text. -/
def Item.scan? (item : Item) (f : Fields) (t : Text) : Option (Fields × Text) :=
  match item with
  | .literal c =>
    if Text.isBlank c then some (f, Text.trimStart t) else (scanChar? c t).map (f, ·)
  | .field g => g.scan? f t
  | .unknown => none

/-- the fields after reading items off a text, which they have to use up -/
def Fields.readItems? : List Item → Fields → Text → Option Fields
  | [], f, t => if t.isEmpty then some f else none
  | item :: rest, f, t => do
    let (f, t) ← item.scan? f t
    readItems? rest f t

/-- The fields of a text that is written in a format. -/
def Fields.read? (format t : Text) : Option Fields := readItems? (items format) empty t

/-- the date-time of a text without regard to its offset -/
def readLocal? (format t : Text) : Option DateTime := (Fields.read? format t).bind Fields.local?

/-- the date-time of a text with an offset -/
def readUniversal? (format t : Text) : Option DateTime :=
  (Fields.read? format t).bind Fields.universal?

/-- the beginning of the date of a text -/
def readDate? (format t : Text) : Option DateTime :=
  (Fields.read? format t).bind Fields.startOfDay?

end FormatInverse.Calendar
