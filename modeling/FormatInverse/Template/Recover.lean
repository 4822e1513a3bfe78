import FormatInverse.Captures.Basic
import FormatInverse.Template.Basic

/-!
# Recovering the texts of a template's anchors

`Template.attempt` matches an input and settles what each term captured: `noSplit` if the layout
does not match, `conflict` if the slots of one term have to agree and do not, `unfilled` if a term
has no slot, `filled` with one text per term otherwise.  `recover` puts these texts into buckets;
`isMatch` answers whether it would, and looks at the captured texts only where they matter.

Memory for the buckets is taken for granted, however many the largest index asks for.
-/

namespace FormatInverse

/-- a slot whose text differs from the first text captured for its term -/
structure Conflict where
  id : TermId
  first : Text
  later : Text
  deriving DecidableEq, Repr

/-- The first conflict among the slots `captured`, when `seen` holds the first texts of the terms
before. -/
def firstConflict? (seen : List (TermId × Text)) : List (TermId × Text) → Option Conflict
  | [] => none
  | (id, text) :: rest =>
    match seen.lookup id with
    | none => firstConflict? ((id, text) :: seen) rest
    | some first => if first = text then firstConflict? seen rest else some ⟨id, first, text⟩

inductive Attempt where
  | noSplit
  | conflict (anchor first later : Text)
  /-- a term without a slot has no text; the terms of compiled templates have slots -/
  | unfilled
  /-- one text per term -/
  | filled (values : List Text)
  deriving DecidableEq, Repr

inductive RecoverError where
  /-- the number of buckets is no 64-bit word, so the largest index has no bucket; a number that is
  one, but of more buckets than there is memory for, is no error here -/
  | tooManyBuckets
  deriving DecidableEq, Repr

namespace Template

/-- The texts at the ranges of the slots, each with the term of its slot. -/
def captured (t : Template) (input : Text) (ranges : List ByteRange) : List (TermId × Text) :=
  t.layout.slots.zip (ranges.map fun r => Text.slice input r.start r.stop)

/-- One text per term, chosen from what its slots captured, if every term has a slot. -/
def values? (t : Template) (captured : List (TermId × Text)) : Option (List Text) :=
  match t.config.duplicates with
  | .lastWins => t.terms.mapM fun term => captured.reverse.lookup term.id
  | _ => t.terms.mapM fun term => captured.lookup term.id

/-- The conflict that rejects a match, if the slots of a term have to agree. -/
def conflict? (t : Template) (captured : List (TermId × Text)) : Option Conflict :=
  match t.config.duplicates with
  | .requireEqual => firstConflict? [] captured
  | _ => none

/-- the anchor of a term -/
def anchorText (t : Template) (id : TermId) : Text :=
  ((t.terms.find? (·.id == id)).map (·.anchor.text)).getD []

def ranges? (t : Template) (input : Text) : Option (List ByteRange) :=
  t.layout.ranges? t.config.strategy t.config.capture input

def attempt (t : Template) (input : Text) : Attempt :=
  match t.ranges? input with
  | none => .noSplit
  | some ranges =>
    let captured := t.captured input ranges
    match t.conflict? captured with
    | some c => .conflict (t.anchorText c.id) c.first c.later
    | none => (t.values? captured).elim .unfilled .filled

/-! ## buckets -/

/-- The number of buckets, as a 64-bit word.  It may be as large as a word can be: whether there is
memory for so many buckets is not asked. -/
def bucketCount (t : Template) : UInt64 :=
  match t.maxIndex? with
  | none => 0
  | some i => i + 1

/-- A placeholder in front of the bucket of its index. -/
def putInBucket (p : Placeholder) (buckets : Array (List Placeholder)) :
    Option (Array (List Placeholder)) :=
  if p.anchor.index.toNat < buckets.size then
    some (buckets.modify p.anchor.index.toNat (p :: ·))
  else none

/-- The buckets of the terms with their texts, in each bucket in the order of the terms.  Making
them cannot fail, only a placeholder can miss its bucket. -/
def buckets? (t : Template) (values : List Text) : Option (Array (List Placeholder)) :=
  (t.terms.zip values).foldrM (fun (term, value) => putInBucket ⟨term.anchor, value⟩)
    (Array.replicate t.bucketCount.toNat [])

/-! ## answers -/

/-- What the anchors of the template stand for in the input, if it matches.  The error is that of a
number of buckets that is no word; running out of memory for them is left out. -/
def recover (t : Template) (input : Text) : Except RecoverError (Option Captures) :=
  match t.attempt input with
  | .filled values =>
    match t.buckets? values with
    | some buckets => .ok (some ⟨t.text, input, buckets⟩)
    | none => .error .tooManyBuckets
  | _ => .ok none

/-- What the anchors stand for in an input that may be absent; an absent input does not match. -/
def recoverGiven (t : Template) (input : Option Text) : Except RecoverError (Option Captures) :=
  match input with
  | some input => t.recover input
  | none => .ok none

/-- What the anchors stand for in each input, in the order of the inputs. -/
def recoverAll (t : Template) (inputs : List Text) : Except RecoverError (List (Option Captures)) :=
  inputs.mapM t.recover

/-- Whether a match of the layout can still be rejected for what its slots captured. -/
def mayConflict (t : Template) : Bool :=
  t.slotCount != t.terms.length && t.config.duplicates == .requireEqual

def isMatch (t : Template) (input : Text) : Bool :=
  if t.mayConflict then
    match t.attempt input with
    | .filled _ => true
    | _ => false
  else t.layout.isMatch t.config.strategy t.config.capture input

end Template

end FormatInverse
