import FormatInverse.Captures.Basic
import FormatInverse.Config.Decode
import FormatInverse.Culture
import FormatInverse.Json.Reader
import FormatInverse.Template.Term

/-!
# The library's values as JSON

`encode` gives the JSON value of a placeholder, a term, a culture, captures or a configuration, with
the fields in the order of their types; `decode?` reads such a value back.  A record may also be
written as the array of its fields, and one of several names also as an object whose only member has
that name and no value.  Numbers are written without fraction and exponent.
-/

namespace FormatInverse

namespace Json

/-! ## views -/

/-- the members of an object whose names are all texts -/
def namedMembers? (members : List (Option Text × Json)) : Option (List (Text × Json)) :=
  members.mapM fun (name, value) => name.map (·, value)

def record? : Json → Option (Record Json)
  | object members => (namedMembers? members).map .named
  | array items => some (.positional items)
  | _ => none

def name? : Json → Option Text
  | string text => text
  | object [(name, null)] => name
  | _ => none

def truth? : Json → Option Bool
  | bool b => some b
  | _ => none

def text? : Json → Option Text
  | string text => text
  | _ => none

/-- an integer, which is not written as a fraction, with an exponent or as minus zero -/
def integer? : Json → Option Int
  | number ('-' :: digits) =>
    if digits.all Char.isDigit && Text.value digits != 0 then some (-(Text.value digits : Int))
    else none
  | number digits => if digits.all Char.isDigit then some (Text.value digits) else none
  | _ => none

/-- an integer from `lo` up to and without `hi` -/
def integerIn? (lo hi : Int) (j : Json) : Option Int :=
  (integer? j).filter fun n => lo ≤ n && n < hi

def word? (j : Json) : Option UInt64 :=
  (integerIn? 0 UInt64.size j).map fun n => UInt64.ofNat n.toNat

instance : Source Json where
  record? := record?
  name? := name?
  truth? := truth?
  word? := word?

/-- a text of one character -/
def char? (j : Json) : Option Char :=
  match text? j with
  | some [c] => some c
  | _ => none

/-- a text, or `null` for none -/
def optionalText? : Json → Option (Option Text)
  | null => some none
  | string (some t) => some (some t)
  | _ => none

def int32? (j : Json) : Option Int32 :=
  (integerIn? Int32.minValue.toInt (Int32.maxValue.toInt + 1) j).map Int32.ofInt

end Json

open Json

/-! ## anchors, terms and placeholders -/

def TermId.encode (id : TermId) : Json := ofNat id.val.toNat

def TermId.decode? (j : Json) : Option TermId :=
  (integerIn? 0 UInt32.size j).map fun n => .ofCount n.toNat

def Term.encode (t : Term) : Json :=
  .record [("id", t.id.encode), ("anchor", ofText t.anchor.text),
    ("index", ofNat t.anchor.index.toNat), ("span", ofInt t.anchor.span.toInt),
    ("format", ofOption ofText t.anchor.format)]

def Term.decode? (j : Json) : Option Term := do
  let r ← record? j
  guard (r.complete 5)
  let id ← r.required? 0 "id" TermId.decode?
  let anchor ← r.required? 1 "anchor" text?
  let index ← r.required? 2 "index" word?
  let span ← r.required? 3 "span" int32?
  let format ← r.fieldOr? 4 "format" none optionalText?
  return ⟨id, ⟨anchor, index, span, format⟩⟩

def Placeholder.encode (p : Placeholder) : Json :=
  .record [("index", ofNat p.anchor.index.toNat), ("value", ofText p.value),
    ("anchor", ofText p.anchor.text), ("span", ofInt p.anchor.span.toInt),
    ("format", ofOption ofText p.anchor.format)]

def Placeholder.decode? (j : Json) : Option Placeholder := do
  let r ← record? j
  guard (r.complete 5)
  let index ← r.required? 0 "index" word?
  let value ← r.required? 1 "value" text?
  let anchor ← r.required? 2 "anchor" text?
  let span ← r.required? 3 "span" int32?
  let format ← r.fieldOr? 4 "format" none optionalText?
  return ⟨⟨anchor, index, span, format⟩, value⟩

/-! ## captures -/

def Captures.encode (c : Captures) : Json :=
  .record [("template", ofText c.template), ("input", ofText c.input),
    ("buckets", .array (c.buckets.toList.map fun bucket => .array (bucket.map Placeholder.encode)))]

/-- the captures as JSON text -/
def Captures.toJson (c : Captures) : Text := c.encode.write

/-! ## cultures -/

def DateOrder.encode (o : DateOrder) : Json := ofString o.name

def DateOrder.decode? (j : Json) : Option DateOrder := Source.choice? DateOrder.ofName? j

def Culture.encode (c : Culture) : Json :=
  .record [("decimal_separator", ofText [c.decimalSeparator]),
    ("group_separator", ofText [c.groupSeparator]), ("date_order", c.dateOrder.encode)]

def Culture.decode? (j : Json) : Option Culture := do
  let r ← record? j
  guard (r.complete 3)
  let point ← r.required? 0 "decimal_separator" char?
  let group ← r.required? 1 "group_separator" char?
  let order ← r.required? 2 "date_order" DateOrder.decode?
  return ⟨point, group, order⟩

/-! ## configurations -/

def Limits.encode (l : Limits) : Json :=
  .record [("max_placeholder_index", ofNat l.maxIndex.toNat),
    ("max_template_length", ofNat l.maxTemplateLength.toNat),
    ("regex_size_limit", ofNat l.patternSize.toNat)]

def Parallel.encode (p : Parallel) : Json :=
  .record [("enabled", .bool p.enabled), ("min_batch_size", ofNat p.minBatchSize.toNat)]

def Config.encode (c : Config) : Json :=
  .record [("strategy", ofString c.strategy.name), ("capture", ofString c.capture.name),
    ("duplicates", ofString c.duplicates.name), ("limits", c.limits.encode),
    ("parallel", c.parallel.encode)]

end FormatInverse
