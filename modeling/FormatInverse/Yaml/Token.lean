import FormatInverse.Yaml.Scalar
import FormatInverse.Yaml.Tag

/-!
# YAML tokens

`Token.scan?` cuts a text into tokens.  Most of them stand in the text as they are; but where a
block mapping or sequence begins and ends, and that a node is the key of a value, shows only by
columns and by a later colon.  So the scanner keeps the column of the collections around, and for
every level of nested flow collections the last node that may turn out to be a key.  A key has at
most 1024 bytes and stands in one line.
-/

namespace FormatInverse.Yaml

inductive Token where
  | version (major minor : Nat)
  /-- a handle and the octets that it stands for -/
  | meaning (tag : Tag)
  | documentStart
  | documentEnd
  | blockSequence
  | blockMapping
  | blockEnd
  | flowSequence
  | flowSequenceEnd
  | flowMapping
  | flowMappingEnd
  | blockEntry
  | flowEntry
  | key
  | value
  | anchor (name : Text)
  | reference (name : Text)
  | tag (tag : Tag)
  | scalar (style : Style) (text : Text)
  deriving DecidableEq, Repr

/-- a node that may be a key -/
structure KeyPlace where
  /-- the number of tokens before it -/
  before : Nat
  mark : Mark
  /-- whether nothing but a key can stand there -/
  required : Bool
  deriving DecidableEq, Repr

/-- whether a node is too far from a place to be the key of a colon there -/
def KeyPlace.isOver (k : KeyPlace) (m : Mark) : Bool :=
  decide (k.mark.line < m.line) || decide (k.mark.index + 1024 < m.index)

structure Scanner where
  cursor : Cursor
  /-- the tokens so far, the latest first -/
  tokens : List Token
  /-- the column of the block collection around the place, -1 outside of all -/
  indent : Int
  /-- the columns of the collections around that one, the innermost first -/
  outer : List Int
  /-- whether a key may begin at the place -/
  keyAllowed : Bool
  /-- the last node on the level of the place that may be a key -/
  key : Option KeyPlace
  /-- the same for the levels of the flow collections around, the innermost first -/
  outerKeys : List (Option KeyPlace)
  deriving DecidableEq, Repr

namespace Scanner

def start (t : Text) : Scanner := ⟨.start t, [], -1, [], true, none, []⟩

def inFlow (s : Scanner) : Bool := !s.outerKeys.isEmpty

def mark (s : Scanner) : Mark := s.cursor.mark

def column (s : Scanner) : Nat := s.cursor.mark.column

def allowKey (s : Scanner) (b : Bool) : Scanner := { s with keyAllowed := b }

/-- one more token, and the place behind it -/
def push (s : Scanner) (t : Token) (after : Cursor) : Scanner :=
  { s with tokens := t :: s.tokens, cursor := after }

/-- a token behind the first `n` tokens -/
def insert (s : Scanner) (n : Nat) (t : Token) : Scanner :=
  let later := s.tokens.length - n
  { s with tokens := s.tokens.take later ++ t :: s.tokens.drop later }

/-! ## keys -/

/-- The scanner without the key of its level, which must not be required. -/
def dropKey? (s : Scanner) : Option Scanner :=
  if (s.key.map (·.required)).getD false then none else some { s with key := none }

/-- The scanner without keys that are over. -/
def dropOldKeys? (s : Scanner) : Option Scanner :=
  let isOld := fun (k : KeyPlace) => k.isOver s.mark
  if (s.key :: s.outerKeys).any fun k => (k.map fun k => isOld k && k.required).getD false then none
  else
    some { s with
      key := s.key.filter (!isOld ·)
      outerKeys := s.outerKeys.map (Option.filter (!isOld ·)) }

/-- The scanner with the next node as a possible key, if keys are allowed. -/
def saveKey? (s : Scanner) : Option Scanner :=
  if s.keyAllowed then
    (dropKey? s).map fun s =>
      { s with key := some ⟨s.tokens.length, s.mark, !s.inFlow && s.indent == s.column⟩ }
  else some s

/-! ## columns -/

/-- The scanner with a block collection that begins at a column, behind the first `n` tokens, unless
that is the column of the collection around. -/
def openBlock (s : Scanner) (column n : Nat) (t : Token) : Scanner :=
  if s.inFlow || decide ((column : Int) ≤ s.indent) then s
  else { s.insert n t with indent := column, outer := s.indent :: s.outer }

/-- The indentation, the ones around it and the tokens after the ends of the collections that do not
reach to a column. -/
def closing (column : Int) (indent : Int) (tokens : List Token) :
    List Int → Int × List Int × List Token
  | [] => (indent, [], tokens)
  | next :: outer =>
    if column < indent then closing column next (.blockEnd :: tokens) outer
    else (indent, next :: outer, tokens)

def closeBlocks (s : Scanner) (column : Int) : Scanner :=
  if s.inFlow then s
  else
    let (indent, outer, tokens) := closing column s.indent s.tokens s.outer
    { s with indent := indent, outer := outer, tokens := tokens }

/-! ## the way to the next token -/

/-- Whether a key may begin, and the place, behind blanks, comments and line breaks.  Outside of
flow collections a new line may begin with a key, and tabs do not count as blanks where a key may
begin. -/
def skipFrom (flow comment allowed : Bool) (m : Mark) : Text → Bool × Cursor
  | [] => (allowed, ⟨m, []⟩)
  | c :: rest =>
    if isBreak c then skipFrom flow false (allowed || !flow) (m.after c) rest
    else if comment || c == '#' then skipFrom flow true allowed (m.after c) rest
    else if c == ' ' || (c == '\t' && (flow || !allowed)) || (c == '\uFEFF' && m.column == 0) then
      skipFrom flow false allowed (m.after c) rest
    else (allowed, ⟨m, c :: rest⟩)

def toNextToken (s : Scanner) : Scanner :=
  let (allowed, cursor) := skipFrom s.inFlow false s.keyAllowed s.mark s.cursor.rest
  { s with keyAllowed := allowed, cursor := cursor }

/-! ## directives and limits of documents -/

/-- the number of a version, of at most nine digits -/
def readVersionNumber? (c : Cursor) : Option (Nat × Cursor) :=
  let digits := c.rest.takeWhile Char.isDigit
  if digits.isEmpty || decide (9 < digits.length) then none
  else some (Text.value digits, c.past digits)

def readVersion? (c : Cursor) : Option (Token × Cursor) := do
  let (major, c) ← readVersionNumber? c.skipBlanks
  if c.isAt '.' then
    let (minor, c) ← readVersionNumber? (c.skip 1)
    return (.version major minor, c)
  else none

/-- A directive by its name, and the next line. -/
def readDirective? (c : Cursor) : Option (Token × Cursor) := do
  let name := (c.rest.drop 1).takeWhile isNameChar
  let after := c.skip (1 + name.length)
  if !startsBlank after.rest then none
  else if name = "YAML".toList then
    let (t, after) ← readVersion? after
    return (t, ← after.endLine?)
  else if name = "TAG".toList then
    let (tag, after) ← Tag.readMeaning? after
    return (.meaning tag, ← after.endLine?)
  else none

/-- The scanner outside of all block collections, with no key allowed. -/
def leaveBlocks? (s : Scanner) : Option Scanner :=
  (dropKey? (s.closeBlocks (-1))).map (·.allowKey false)

def directive? (s : Scanner) : Option Scanner := do
  let s ← leaveBlocks? s
  let (t, after) ← readDirective? s.cursor
  return s.push t after

def limit? (t : Token) (s : Scanner) : Option Scanner :=
  (leaveBlocks? s).map fun s => s.push t (s.cursor.skip 3)

/-! ## flow collections -/

def flowStart? (t : Token) (s : Scanner) : Option Scanner :=
  (saveKey? s).map fun s =>
    { s.push t (s.cursor.skip 1) with
      keyAllowed := true, key := none, outerKeys := s.key :: s.outerKeys }

def flowEnd? (t : Token) (s : Scanner) : Option Scanner :=
  (dropKey? s).map fun s =>
    match s.outerKeys with
    | [] => (s.allowKey false).push t (s.cursor.skip 1)
    | key :: outerKeys =>
      { s.push t (s.cursor.skip 1) with keyAllowed := false, key := key, outerKeys := outerKeys }

def flowEntry? (s : Scanner) : Option Scanner :=
  (dropKey? s).map fun s => (s.allowKey true).push .flowEntry (s.cursor.skip 1)

/-! ## entries, keys and values -/

/-- The scanner with a block collection at the place, where an entry or a key may begin. -/
def openHere? (t : Token) (s : Scanner) : Option Scanner :=
  if s.inFlow then some s
  else if s.keyAllowed then some (s.openBlock s.column s.tokens.length t)
  else none

def blockEntry? (s : Scanner) : Option Scanner := do
  let s ← dropKey? (← openHere? .blockSequence s)
  return (s.allowKey true).push .blockEntry (s.cursor.skip 1)

def key? (s : Scanner) : Option Scanner := do
  let s ← dropKey? (← openHere? .blockMapping s)
  return (s.allowKey (!s.inFlow)).push .key (s.cursor.skip 1)

def value? (s : Scanner) : Option Scanner :=
  match s.key with
  | some k =>
    let s := (s.insert k.before .key).openBlock k.mark.column k.before .blockMapping
    some (({ s with key := none }.allowKey false).push .value (s.cursor.skip 1))
  | none =>
    (openHere? .blockMapping s).map fun s =>
      (s.allowKey (!s.inFlow)).push .value (s.cursor.skip 1)

/-! ## nodes and their properties -/

/-- whether a name can end before a text -/
def endsName : Text → Bool
  | [] => true
  | c :: _ => isBlank c || isBreak c || ['?', ':', ',', ']', '\x7d', '%', '@', '\x60'].contains c

/-- A name after the indicator at the place. -/
def name? (t : Text → Token) (s : Scanner) : Option Scanner := do
  let s ← saveKey? s
  let name := (s.cursor.rest.drop 1).takeWhile isNameChar
  let after := s.cursor.skip (1 + name.length)
  if name.isEmpty || !endsName after.rest then none
  else return (s.allowKey false).push (t name) after

def tag? (s : Scanner) : Option Scanner := do
  let s ← saveKey? s
  let (tag, after) ← Tag.read? s.inFlow s.cursor
  return (s.allowKey false).push (.tag tag) after

def block? (style : Style) (s : Scanner) : Option Scanner := do
  let s ← dropKey? s
  let (t, after) ← readBlock? (style == .folded) s.indent s.cursor
  return (s.allowKey true).push (.scalar style t) after

def quoted? (s : Scanner) : Option Scanner := do
  let s ← saveKey? s
  let (t, after) ← readQuoted? s.cursor
  return (s.allowKey false).push (.scalar .quoted t) after

def plain? (s : Scanner) : Option Scanner := do
  let s ← saveKey? s
  let (t, newLine, after) ← readPlain? s.inFlow s.indent s.cursor
  return (s.allowKey newLine).push (.scalar .plain t) after

/-- the characters that a scalar without quotes cannot start with -/
def isIndicator (c : Char) : Bool :=
  isFlowChar c || ['-', '?', ':', '#', '&', '*', '!', '|', '>', '\x27', '\x22', '%', '@',
    '\x60'].contains c

/-- whether a scalar without quotes starts with the text `c :: rest` -/
def startsPlain (flow : Bool) (c : Char) (rest : Text) : Bool :=
  !(isIndicator c || isBlank c)
    || (c == '-' && !(rest.head?.map isBlank).getD false)
    || (!flow && (c == '?' || c == ':') && !startsBlank rest)

/-! ## scanning -/

/-- The next token, which starts with `c`. -/
def next? (s : Scanner) (c : Char) (rest : Text) : Option Scanner :=
  if c = '%' ∧ s.column = 0 then directive? s
  else if s.cursor.isAtMarker '-' then limit? .documentStart s
  else if s.cursor.isAtMarker '.' then limit? .documentEnd s
  else if c = '[' then flowStart? .flowSequence s
  else if c = '\x7b' then flowStart? .flowMapping s
  else if c = ']' then flowEnd? .flowSequenceEnd s
  else if c = '\x7d' then flowEnd? .flowMappingEnd s
  else if c = ',' then flowEntry? s
  else if c = '-' && startsBlank rest then blockEntry? s
  else if c = '?' && (s.inFlow || startsBlank rest) then key? s
  else if c = ':' && (s.inFlow || startsBlank rest) then value? s
  else if c = '*' then name? .reference s
  else if c = '&' then name? .anchor s
  else if c = '!' then tag? s
  else if c = '|' && !s.inFlow then block? .literal s
  else if c = '>' && !s.inFlow then block? .folded s
  else if c = '\x27' ∨ c = '\x22' then quoted? s
  else if startsPlain s.inFlow c rest then plain? s
  else none

/-- The tokens of a text that is read as far as the scanner; `fuel` bounds their number. -/
def run? : Nat → Scanner → Option (List Token)
  | 0, _ => none
  | fuel + 1, s => do
    let s ← dropOldKeys? s.toNextToken
    match s.cursor.rest with
    | [] =>
      let s ← leaveBlocks? s
      return s.tokens.reverse
    | c :: rest =>
      let s ← next? (s.closeBlocks s.column) c rest
      run? fuel s

end Scanner

/-- The tokens of a text; every one takes at least one character. -/
def Token.scan? (t : Text) : Option (List Token) := Scanner.run? (t.length + 1) (.start t)

end FormatInverse.Yaml
