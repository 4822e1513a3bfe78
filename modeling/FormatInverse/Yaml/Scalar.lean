import FormatInverse.Text.Numeral
import FormatInverse.Yaml.Cursor

/-!
# YAML scalars

A scalar without quotes or in quotes may go on over several lines; a single line break in it counts
as a space, and of several breaks the first one does not count.  A block scalar is a block of lines
that are indented alike.  Each reader gives the text of the scalar and the place behind it.
-/

namespace FormatInverse.Yaml

inductive Style where
  /-- without quotes -/
  | plain
  | quoted
  /-- a block that keeps its line breaks -/
  | literal
  /-- a block in which line breaks are folded -/
  | folded
  deriving DecidableEq, Repr

/-! ## folding lines -/

/-- A text that is being folded: what has been read, and the blanks and line breaks behind it. -/
structure Folding where
  /-- the last character comes first -/
  text : Text
  /-- the blanks, the last one first -/
  blanks : Text
  /-- whether a line break stands behind the text that does not count among others -/
  broken : Bool
  /-- the other line breaks -/
  more : Nat
  /-- whether the text goes on in a new line -/
  newLine : Bool
  deriving DecidableEq, Repr

namespace Folding

def empty : Folding := ⟨[], [], false, 0, false⟩

/-- what the blanks and line breaks behind the text become -/
def gap (f : Folding) : Text :=
  if !f.newLine then f.blanks.reverse
  else if f.broken && f.more == 0 then [' ']
  else List.replicate f.more '\n'

/-- whether something stands behind the text -/
def hasGap (f : Folding) : Bool := f.newLine || !f.blanks.isEmpty

def settled (f : Folding) : Folding := ⟨f.gap.reverse ++ f.text, [], false, 0, false⟩

def add (f : Folding) (c : Char) : Folding :=
  let f := f.settled
  { f with text := c :: f.text }

def blank (f : Folding) (c : Char) : Folding :=
  if f.newLine then f else { f with blanks := c :: f.blanks }

def lineBreak (f : Folding) : Folding :=
  if f.newLine then { f with more := f.more + 1 }
  else { f with blanks := [], broken := true, newLine := true }

/-- the text after an escaped line break, which counts for nothing -/
def join (f : Folding) : Folding := { f.settled with newLine := true }

/-- the text after a character without a meaning of its own -/
def next (f : Folding) (c : Char) : Folding :=
  if isBreak c then f.lineBreak else if isBlank c then f.blank c else f.add c

end Folding

/-! ## scalars without quotes -/

/-- whether a text starts with a character that a colon in a flow scalar must not precede -/
def startsFlow : Text → Bool
  | [] => false
  | c :: _ => isFlowChar c || c == '?'

/-- whether a scalar ends before the character `d` for the blanks and line breaks before it; in a
block it goes on in lines that are indented by more than `indent` -/
def endsInGap (flow : Bool) (indent : Int) (f : Folding) (c : Cursor) : Bool :=
  f.hasGap && (c.isAtLimit || c.isAt '#' || (!flow && decide ((c.mark.column : Int) ≤ indent)))

/-- whether a scalar ends before the text `d :: rest` for what it starts with -/
def endsBefore (flow : Bool) (d : Char) (rest : Text) : Bool :=
  (d == ':' && startsBlank rest) || (flow && isFlowChar d)

/-- The rest of a scalar.  A colon before a character of flow collections is a fault there, and so
is a tab where a line has to be indented. -/
def readPlainFrom? (flow : Bool) (indent : Int) (m : Mark) (f : Folding) :
    Text → Option (Folding × Cursor)
  | [] => some (f, ⟨m, []⟩)
  | d :: rest =>
    if isBreak d then readPlainFrom? flow indent (m.after d) f.lineBreak rest
    else if isBlank d then
      if f.newLine && d == '\t' && decide ((m.column : Int) ≤ indent) then none
      else readPlainFrom? flow indent (m.after d) (f.blank d) rest
    else if endsInGap flow indent f ⟨m, d :: rest⟩ then some (f, ⟨m, d :: rest⟩)
    else if flow && d == ':' && startsFlow rest then none
    else if endsBefore flow d rest then some (f, ⟨m, d :: rest⟩)
    else readPlainFrom? flow indent (m.after d) (f.add d) rest

/-- The text of a scalar without quotes, whether a new line begins behind it, and the place behind
the blanks and line breaks after it. -/
def readPlain? (flow : Bool) (indent : Int) (c : Cursor) : Option (Text × Bool × Cursor) :=
  (readPlainFrom? flow indent c.mark .empty c.rest).map fun (f, after) =>
    (f.text.reverse, f.newLine, after)

/-! ## scalars in quotes -/

/-- The rest of a scalar in single quotes, in which a quote is written twice. -/
def readSingle? (m : Mark) (f : Folding) : Text → Option (Text × Cursor)
  | [] => none
  | d :: rest =>
    if (Cursor.mk m (d :: rest)).isAtLimit then none
    else if d = '\x27' then
      match rest with
      | q :: after =>
        if q = '\x27' then readSingle? ((m.after d).after q) (f.add d) after
        else some (f.settled.text.reverse, ⟨m.after d, rest⟩)
      | [] => some (f.settled.text.reverse, ⟨m.after d, []⟩)
    else readSingle? (m.after d) (f.next d) rest

/-- the character of an escape by one letter -/
def escapeChar? (c : Char) : Option Char :=
  ([('0', 0), ('a', 7), ('b', 8), ('t', 9), ('\t', 9), ('n', 10), ('v', 11), ('f', 12), ('r', 13),
    ('e', 27), (' ', 32), ('\x22', 34), ('/', 47), ('\\', 92), ('N', 0x85), ('_', 0xA0),
    ('L', 0x2028), ('P', 0x2029)].lookup c).map Char.ofNat

/-- the number of hexadecimal digits of an escape by code -/
def escapeWidth? (c : Char) : Option Nat := [('x', 2), ('u', 4), ('U', 8)].lookup c

/-- the character with the code that hexadecimal digits give -/
def codeChar? (digits : Text) : Option Char :=
  ((digits.foldlM (fun n c => (Text.hexValue? c).map (16 * n + ·)) 0).filter
    fun n => decide n.isValidChar).map Char.ofNat

/-- What an escape stands for, and how many characters follow its letter. -/
def escape? (letter : Char) (after : Text) : Option (Char × Nat) :=
  match escapeWidth? letter with
  | some width =>
    if width ≤ after.length then (codeChar? (after.take width)).map (·, width) else none
  | none => (escapeChar? letter).map (·, 0)

/-- The rest of a scalar in double quotes, of which the first `passed` characters are read
already. -/
def readDouble? (passed : Nat) (m : Mark) (f : Folding) : Text → Option (Text × Cursor)
  | [] => none
  | d :: rest =>
    if 0 < passed then readDouble? (passed - 1) (m.after d) f rest
    else if (Cursor.mk m (d :: rest)).isAtLimit then none
    else if d = '\x22' then some (f.settled.text.reverse, ⟨m.after d, rest⟩)
    else if d = '\\' then
      match rest with
      | [] => none
      | e :: after =>
        if isBreak e then readDouble? 0 ((m.after d).after e) f.join after
        else
          match escape? e after with
          | some (x, n) => readDouble? n ((m.after d).after e) (f.add x) after
          | none => none
    else readDouble? 0 (m.after d) (f.next d) rest

/-- A scalar in quotes. -/
def readQuoted? (c : Cursor) : Option (Text × Cursor) :=
  match c.rest with
  | [] => none
  | q :: rest =>
    if q = '\x27' then readSingle? (c.mark.after q) .empty rest
    else readDouble? 0 (c.mark.after q) .empty rest

/-! ## block scalars -/

/-- what becomes of the line breaks at the end of a block -/
inductive Chomp where
  | strip
  | clip
  | keep
  deriving DecidableEq, Repr

structure BlockHeader where
  chomp : Chomp
  /-- the indentation beyond that of the parent, zero if it is not given -/
  indent : Nat
  deriving DecidableEq, Repr

def readChomp (c : Cursor) : Chomp × Cursor :=
  if c.isAt '-' then (.strip, c.skip 1)
  else if c.isAt '+' then (.keep, c.skip 1)
  else (.clip, c)

/-- an indentation by one digit, which is not zero -/
def readIndent? (c : Cursor) : Option (Nat × Cursor) :=
  match c.rest with
  | [] => some (0, c)
  | d :: _ =>
    if d = '0' then none
    else if d.isDigit then some (Text.digitValue d, c.skip 1)
    else some (0, c)

/-- The indicators of a block, in either order, and the place in the line behind them. -/
def readHeader? (c : Cursor) : Option (BlockHeader × Cursor) := do
  if c.isAt '-' || c.isAt '+' then
    let (chomp, c) := readChomp c
    let (indent, c) ← readIndent? c
    return (⟨chomp, indent⟩, ← c.endLine?)
  else
    let (indent, c) ← readIndent? c
    let (chomp, c) := readChomp c
    return (⟨chomp, indent⟩, ← c.endLine?)

/-- The lines without content from a place on: the widest indentation, the number of line breaks,
and the place of the content behind `indent` spaces, or behind all spaces if `indent` is zero.  No
tab may stand where a space is expected. -/
def readEmptyLines? (indent : Nat) : Nat → Nat → Nat → Cursor → Option (Nat × Nat × Cursor)
  | 0, _, _, _ => none
  | fuel + 1, widest, breaks, c =>
    let spaces := c.rest.takeWhile (· == ' ')
    let c := c.past (if indent = 0 then spaces else spaces.take (indent - c.mark.column))
    let widest := max widest c.mark.column
    if (indent == 0 || decide (c.mark.column < indent)) && c.isAt '\t' then none
    else if c.isAt '\n' then readEmptyLines? indent fuel widest (breaks + 1) (c.skip 1)
    else some (widest, breaks, c)

/-- A block that is being read. -/
structure Block where
  /-- the last character comes first -/
  text : Text
  /-- whether a line break stands behind the last line with content -/
  broken : Bool
  /-- the line breaks of empty lines behind it -/
  more : Nat
  /-- whether the last line with content starts with a blank -/
  spaced : Bool
  deriving DecidableEq, Repr

/-- what the line breaks before a line become; `spaced` tells whether that starts with a blank -/
def Block.gap (b : Block) (folded spaced : Bool) : Text :=
  if folded && b.broken && !b.spaced && !spaced then
    if b.more = 0 then [' '] else List.replicate b.more '\n'
  else (if b.broken then ['\n'] else []) ++ List.replicate b.more '\n'

/-- The lines with content and the empty lines between and behind them. -/
def readLines? (folded : Bool) (indent : Nat) : Nat → Block → Cursor → Option (Block × Cursor)
  | 0, _, _ => none
  | fuel + 1, b, c =>
    if c.mark.column = indent ∧ !c.rest.isEmpty then do
      let spaced := (c.rest.head?.map isBlank).getD false
      let line := c.rest.takeWhile (!isBreak ·)
      let after := c.past line
      let next := after.skip 1
      let (_, more, last) ← readEmptyLines? indent (next.rest.length + 1) 0 0 next
      readLines? folded indent fuel
        ⟨line.reverse ++ (b.gap folded spaced).reverse ++ b.text, !after.rest.isEmpty, more, spaced⟩
        last
    else some (b, c)

def Block.result (b : Block) (chomp : Chomp) : Text :=
  b.text.reverse
    ++ (if b.broken && chomp != .strip then ['\n'] else [])
    ++ (if chomp = .keep then List.replicate b.more '\n' else [])

/-- A block whose indicator stands at a place, under a node that is indented by `parent`. -/
def readBlock? (folded : Bool) (parent : Int) (c : Cursor) : Option (Text × Cursor) := do
  let (h, c) ← readHeader? (c.skip 1)
  let given := if h.indent = 0 then 0 else parent.toNat + h.indent
  let (widest, more, c) ← readEmptyLines? given (c.rest.length + 1) 0 0 c
  let indent := if given = 0 then max widest (max (parent + 1).toNat 1) else given
  let (b, c) ← readLines? folded indent (c.rest.length + 1) ⟨[], false, more, false⟩ c
  return (b.result h.chomp, c)

end FormatInverse.Yaml
