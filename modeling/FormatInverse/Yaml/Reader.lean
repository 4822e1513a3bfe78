import FormatInverse.Yaml.Node
import FormatInverse.Yaml.Token

/-!
# Reading YAML

`Yaml.read?` reads a text that holds at most one document.  The tokens of the text are read from
left to right; a node, an entry or an item takes at least one token, and its parts are read with
less fuel, so a multiple of the number of tokens is enough.
-/

namespace FormatInverse.Yaml

/-- What is still to be read, and what has been declared. -/
structure Reader where
  tokens : List Token
  /-- the names of nodes with their numbers -/
  numbers : List (Text × Nat)
  /-- the handles of tags with the octets that they stand for -/
  meanings : List (Text × Octets)
  deriving DecidableEq, Repr

/-- the properties of a node -/
structure Properties where
  number : Option Nat
  tag : Option Octets
  deriving DecidableEq, Repr

namespace Reader

/-- the reader behind its first token -/
def step (r : Reader) : Reader := { r with tokens := r.tokens.drop 1 }

/-- whether the next token is one of some -/
def isAt (r : Reader) (ts : List Token) : Bool := (r.tokens.head?.map ts.contains).getD false

/-! ## properties -/

/-- A name for the next node: its number is the number of names known before, even if the name is
one of them. -/
def declare (r : Reader) (name : Text) : Nat × Reader :=
  let number := r.numbers.length
  (number, { r with numbers := (name, number) :: r.numbers.filter (·.1 != name) })

/-- the octets of a tag -/
def meaning? (r : Reader) (t : Tag) : Option Octets :=
  if t.handle.isEmpty then some t.suffix else (r.meanings.lookup t.handle).map (· ++ t.suffix)

def anchor? (r : Reader) : Option Text × Reader :=
  match r.tokens with
  | .anchor name :: _ => (some name, r.step)
  | _ => (none, r)

def tag? (r : Reader) : Option Tag × Reader :=
  match r.tokens with
  | .tag t :: _ => (some t, r.step)
  | _ => (none, r)

/-- The name and the tag of the next node, in either order. -/
def properties? (r : Reader) : Option (Properties × Reader) := do
  let (before, r) := r.anchor?
  let (t, r) := r.tag?
  let (name, r) := if before.isSome then (before, r) else r.anchor?
  let tag ← match t with
    | some t => (r.meaning? t).map some
    | none => some none
  match name with
  | some name =>
    let (number, r) := r.declare name
    return (⟨some number, tag⟩, r)
  | none => return (⟨none, tag⟩, r)

end Reader

/-- a node with its number, if it has one -/
def Properties.numbered (p : Properties) (node : Node) : Node :=
  match p.number with
  | some number => .numbered number node
  | none => node

/-- a scalar with its number and its tag -/
def Properties.scalar (p : Properties) (style : Style) (t : Text) : Node :=
  p.numbered (.scalar style p.tag t)

/-- where a node stands -/
inductive Site where
  /-- in a flow collection -/
  | flow
  /-- in a block -/
  | block
  /-- after a key or a value indicator of a block mapping, where a sequence needs no column of its
  own -/
  | entry
  deriving DecidableEq, Repr

/-! ## nodes -/

mutual

def readNode? : Nat → Site → Reader → Option (Node × Reader)
  | 0, _, _ => none
  | fuel + 1, site, r =>
    match r.tokens with
    | .reference name :: _ => (r.numbers.lookup name).map fun number => (.reference number, r.step)
    | _ => do
      let (p, r) ← r.properties?
      match r.tokens with
      | .scalar style t :: _ => return (p.scalar style t, r.step)
      | .flowSequence :: _ =>
        let (items, r) ← readFlowItems? fuel true r.step
        return (p.numbered (.sequence items), r)
      | .flowMapping :: _ =>
        let (entries, r) ← readFlowEntries? fuel true r.step
        return (p.numbered (.mapping entries), r)
      | .blockEntry :: _ =>
        if site = .entry then
          let (items, r) ← readDashes? fuel r
          return (p.numbered (.sequence items), r)
        else readUnwritten? p r
      | .blockSequence :: _ =>
        if site = .flow then readUnwritten? p r
        else
          let (items, r) ← readItems? fuel r.step
          return (p.numbered (.sequence items), r)
      | .blockMapping :: _ =>
        if site = .flow then readUnwritten? p r
        else
          let (entries, r) ← readEntries? fuel r.step
          return (p.numbered (.mapping entries), r)
      | _ => readUnwritten? p r

/-- A node of which only properties are written. -/
def readUnwritten? (p : Properties) (r : Reader) : Option (Node × Reader) :=
  if p.number.isNone && p.tag.isNone then none
  else some (p.scalar .plain [], r)

/-- A node, or the empty node before one of the tokens `ends`. -/
def readPart? : Nat → Site → List Token → Reader → Option (Node × Reader)
  | 0, _, _, _ => none
  | fuel + 1, site, ends, r => if r.isAt ends then some (.empty, r) else readNode? fuel site r

/-- The items of a block sequence and its end. -/
def readItems? : Nat → Reader → Option (List Node × Reader)
  | 0, _ => none
  | fuel + 1, r =>
    if r.isAt [.blockEntry] then do
      let (item, r) ← readPart? fuel .block [.blockEntry, .blockEnd] r.step
      let (items, r) ← readItems? fuel r
      return (item :: items, r)
    else if r.isAt [.blockEnd] then some ([], r.step)
    else none

/-- The items of a block sequence without a column of its own. -/
def readDashes? : Nat → Reader → Option (List Node × Reader)
  | 0, _ => none
  | fuel + 1, r =>
    if r.isAt [.blockEntry] then do
      let (item, r) ← readPart? fuel .block [.blockEntry, .key, .value, .blockEnd] r.step
      let (items, r) ← readDashes? fuel r
      return (item :: items, r)
    else some ([], r)

/-- The entries of a block mapping and its end. -/
def readEntries? : Nat → Reader → Option (List (Node × Node) × Reader)
  | 0, _ => none
  | fuel + 1, r =>
    if r.isAt [.key] then do
      let (key, r) ← readPart? fuel .entry [.key, .value, .blockEnd] r.step
      let (value, r) ←
        if r.isAt [.value] then readPart? fuel .entry [.key, .value, .blockEnd] r.step
        else some (.empty, r)
      let (entries, r) ← readEntries? fuel r
      return ((key, value) :: entries, r)
    else if r.isAt [.blockEnd] then some ([], r.step)
    else none

/-- The value of a flow entry, if there is one, before one of the tokens `ends`. -/
def readFlowValue? : Nat → List Token → Reader → Option (Node × Reader)
  | 0, _, _ => none
  | fuel + 1, ends, r =>
    if r.isAt [.value] then readPart? fuel .flow ends r.step else some (.empty, r)

/-- The entry of a flow sequence that has a key.  If the key is not written, the token that shows
it is passed over. -/
def readPair? : Nat → Reader → Option (Node × Reader)
  | 0, _ => none
  | fuel + 1, r => do
    let unwritten := r.isAt [.value, .flowEntry, .flowSequenceEnd]
    let (key, r) ← if unwritten then some (.empty, r.step) else readNode? fuel .flow r
    let (value, r) ← readFlowValue? fuel [.flowEntry, .flowSequenceEnd] r
    return (.mapping [(key, value)], r)

/-- The items of a flow sequence and its end; a comma stands before each but the `first`. -/
def readFlowItems? : Nat → Bool → Reader → Option (List Node × Reader)
  | 0, _, _ => none
  | fuel + 1, first, r =>
    if r.isAt [.flowSequenceEnd] then some ([], r.step)
    else if !first && !r.isAt [.flowEntry] then none
    else
      let r := if first then r else r.step
      if r.isAt [.flowSequenceEnd] then some ([], r.step)
      else do
        let (item, r) ← if r.isAt [.key] then readPair? fuel r.step else readNode? fuel .flow r
        let (items, r) ← readFlowItems? fuel false r
        return (item :: items, r)

/-- The entries of a flow mapping and its end; a comma stands before each but the `first`. -/
def readFlowEntries? : Nat → Bool → Reader → Option (List (Node × Node) × Reader)
  | 0, _, _ => none
  | fuel + 1, first, r =>
    if r.isAt [.flowMappingEnd] then some ([], r.step)
    else if !first && !r.isAt [.flowEntry] then none
    else
      let r := if first then r else r.step
      if r.isAt [.flowMappingEnd] then some ([], r.step)
      else if r.isAt [.key] then do
        let ends := [.flowEntry, .flowMappingEnd]
        let (key, r) ← readPart? fuel .flow (.value :: ends) r.step
        let (value, r) ← readFlowValue? fuel ends r
        let (entries, r) ← readFlowEntries? fuel false r
        return ((key, value) :: entries, r)
      else do
        let (key, r) ← readNode? fuel .flow r
        let (entries, r) ← readFlowEntries? fuel false r
        return ((key, .empty) :: entries, r)

end

/-! ## documents -/

/-- The directives before a document: the version, at most once, and the meanings of handles. -/
def readDirectives? (version : Bool) (meanings : List (Text × Octets)) :
    List Token → Option (List (Text × Octets) × List Token)
  | .version major minor :: rest =>
    if version || major != 1 || !(minor == 1 || minor == 2) then none
    else readDirectives? true meanings rest
  | .meaning t :: rest =>
    if (meanings.lookup t.handle).isSome then none
    else readDirectives? version ((t.handle, t.suffix) :: meanings) rest
  | ts => some (meanings, ts)

/-- what the handles stand for that need no declaration -/
def standardMeanings : List (Text × Octets) :=
  [(['!'], octets ['!']), (['!', '!'], Tag.standard "")]

/-- whether a document that has been started holds nothing before some tokens -/
def isOver : List Token → Bool
  | [] => true
  | .version _ _ :: _ => true
  | .meaning _ :: _ => true
  | t :: _ => t == .documentStart || t == .documentEnd

/-- The outermost node of the document that tokens hold, and the tokens behind it.  A document with
directives has to be started by its marker. -/
def readDocument? (ts : List Token) : Option (Node × List Token) := do
  let (meanings, rest) ← readDirectives? false [] ts
  let r : Reader := ⟨rest, [], meanings ++ standardMeanings⟩
  let fuel := 4 * ts.length + 4
  let (node, last) ←
    if r.isAt [.documentStart] then
      if isOver r.step.tokens then some (.empty, r.step) else readNode? fuel .block r.step
    else if rest.length < ts.length then none
    else if rest.isEmpty then some (.empty, r)
    else readNode? fuel .block r
  return (node, last.tokens)

/-- whether a character ends a line, alone or after a carriage return -/
def endsLine (c : Char) : Bool :=
  c == '\n' || c == '\r' || c == '\x85' || c == '\u2028' || c == '\u2029'

/-- the text with every line break as one character -/
def normalBreaks : Text → Text
  | [] => []
  | c :: rest =>
    if c = '\r' then
      match rest with
      | d :: after =>
        if d = '\n' then '\n' :: normalBreaks after else '\n' :: normalBreaks (d :: after)
      | [] => ['\n']
    else (if endsLine c then '\n' else c) :: normalBreaks rest

/-- the characters that a text may hold -/
def isAllowed (c : Char) : Bool :=
  c == '\t' || c == '\n' || c == '\r' || (0x20 ≤ c.toNat && c.toNat ≤ 0x7E) || c.toNat == 0x85
    || (0xA0 ≤ c.toNat && c.toNat != 0xFFFE && c.toNat != 0xFFFF)

/-- The document that a text holds; nothing but ends of documents may follow it. -/
def read? (t : Text) : Option Document := do
  if t.all isAllowed then
    let (node, rest) ← readDocument? (← Token.scan? (normalBreaks t))
    if rest.all (· == .documentEnd) then return .ofNode node else none
  else none

end FormatInverse.Yaml
