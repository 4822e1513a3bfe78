import FormatInverse.Calendar.Hint
import FormatInverse.Calendar.Internet
import FormatInverse.Culture

/-!
# Reading date-times

Without a hint the forms are tried in a fixed order: timestamps, the international forms, and the
short date of the culture, alone or with a time of day.  A hint of one letter names one form, every
other hint describes one.  Values with an offset are given in Greenwich time.
-/

namespace FormatInverse.Calendar

/-- the first result of `read` on a list -/
def firstOf? (read : α → Option β) : List α → Option β
  | [] => none
  | a :: rest => (read a).or (firstOf? read rest)

/-! ## formats -/

def isoSeconds : Text := "%Y-%m-%dT%H:%M:%S%.f".toList

/-- the international forms of a date-time -/
def isoFormats : List Text :=
  [isoSeconds, "%Y-%m-%d %H:%M:%S%.f".toList, "%Y-%m-%dT%H:%M".toList, "%Y-%m-%d %H:%M".toList]

def isoDate : Text := "%Y-%m-%d".toList

def withSeconds : Text := " %H:%M:%S".toList

def withMinutes : Text := " %H:%M".toList

/-- the fields of a short date in their order -/
def shortDateFields : DateOrder → List Field
  | .monthDayYear => [.month, .day, .year]
  | .dayMonthYear => [.day, .month, .year]
  | .yearMonthDay => [.year, .month, .day]

/-- the format of a short date -/
def shortDate (order : DateOrder) (separator : Char) : Text :=
  List.intercalate [separator] ((shortDateFields order).map Field.written)

/-! ## without a hint -/

/-- a short date with one separator, alone or with a time of day -/
def readShort? (order : DateOrder) (t : Text) (separator : Char) : Option DateTime :=
  let date := shortDate order separator
  (readLocal? (date ++ withSeconds) t).or <|
    (readLocal? (date ++ withMinutes) t).or (readDate? date t)

def readDefault? (k : Culture) (t : Text) : Option DateTime :=
  (readTimestamp? t).or <|
    (firstOf? (readLocal? · t) isoFormats).or <|
      (readDate? isoDate t).or (firstOf? (readShort? k.dateOrder t) ['/', '-', '.'])

/-! ## by a hint -/

/-- A text in a format: with its offset, without one, or as the date alone. -/
def readBy? (format t : Text) : Option DateTime :=
  (readUniversal? format t).or <| (readLocal? format t).or (readDate? format t)

def readHinted? (k : Culture) (hint t : Text) : Option DateTime :=
  let date := shortDate k.dateOrder '/'
  match hint with
  | [c] =>
    if c = 'o' ∨ c = 'O' then (readTimestamp? t).or (readLocal? isoSeconds t)
    else if c = 'r' ∨ c = 'R' then readMailDate? t
    else if c = 's' then readLocal? "%Y-%m-%dT%H:%M:%S".toList t
    else if c = 'u' then readLocal? "%Y-%m-%d %H:%M:%SZ".toList t
    else if c = 'd' then readDate? date t
    else if c = 'g' then readBy? (date ++ withMinutes) t
    else if c = 'G' then readBy? (date ++ withSeconds) t
    else none
  | _ => (Hint.format? hint).bind (readBy? · t)

/-- The date-time of a text, by a hint or in one of the usual forms. -/
def parse? (k : Culture) (hint : Option Text) (raw : Text) : Option DateTime :=
  let t := Text.trim raw
  if t.isEmpty then none
  else
    match hint with
    | none => readDefault? k t
    | some hint => readHinted? k hint t

variable {raw : Text}

theorem parse?_default (k : Culture) (h : Text.trim raw ≠ []) :
    parse? k none raw = readDefault? k (Text.trim raw) :=
  if_neg (by simpa using h)

theorem parse?_hinted (k : Culture) (hint : Text) (h : Text.trim raw ≠ []) :
    parse? k (some hint) raw = readHinted? k hint (Text.trim raw) :=
  if_neg (by simpa using h)

theorem trim_ne_nil_of_parse? {k : Culture} {hint : Option Text} {v : DateTime}
    (h : parse? k hint raw = some v) : Text.trim raw ≠ [] := by
  intro hnil
  unfold parse? at h
  rw [hnil] at h
  cases h

end FormatInverse.Calendar
