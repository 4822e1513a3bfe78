import FormatInverse.Config.Source
import FormatInverse.Text.Numeral
import FormatInverse.Yaml.Scalar
import FormatInverse.Yaml.Tag

/-!
# YAML nodes

A node is a scalar, a sequence or a mapping; a node that is not written is the empty scalar.  What
a scalar means is decided by the one who asks for it: only a scalar without quotes can be a truth
value or a number, unless its tag says so, and any scalar can be a name.

A node may have a number, by which references mean it; where several nodes have one number, the
last of them is meant.  So a `Document` is a node together with the nodes that references in it
mean, and a node may contain references to itself.
-/

namespace FormatInverse.Yaml

inductive Node where
  | scalar (style : Style) (tag : Option Octets) (text : Text)
  | sequence (items : List Node)
  | mapping (entries : List (Node × Node))
  /-- a node with a number -/
  | numbered (number : Nat) (node : Node)
  | reference (number : Nat)
  deriving Repr

namespace Node

/-- the node that is not written -/
def empty : Node := .scalar .plain none []

/-- the node without its number -/
def content : Node → Node
  | numbered _ node => node
  | node => node

mutual

/-- the nodes that have a number, in the order in which they begin -/
def numberedNodes : Node → List (Nat × Node)
  | scalar _ _ _ => []
  | reference _ => []
  | numbered number node => (number, node) :: numberedNodes node
  | sequence items => numberedItems items
  | mapping entries => numberedEntries entries

def numberedItems : List Node → List (Nat × Node)
  | [] => []
  | item :: rest => numberedNodes item ++ numberedItems rest

def numberedEntries : List (Node × Node) → List (Nat × Node)
  | [] => []
  | (key, value) :: rest => numberedNodes key ++ numberedNodes value ++ numberedEntries rest

end

end Node

/-- A node, and the nodes that references mean. -/
structure Document where
  node : Node
  meant : List (Nat × Node)
  deriving Repr

namespace Document

/-- the document of its outermost node -/
def ofNode (node : Node) : Document := ⟨node, node.numberedNodes.reverse⟩

/-- the same document at another node -/
def part (d : Document) (node : Node) : Document := { d with node := node }

/-- the node, or the one that it refers to -/
def target? (d : Document) : Option Node :=
  match d.node with
  | .reference number => (d.meant.lookup number).map Node.content
  | node => some node.content

end Document

/-! ## truth values and numbers -/

def truthOf? (t : Text) : Option Bool :=
  if ["true", "True", "TRUE"].any fun w => w.toList == t then some true
  else if ["false", "False", "FALSE"].any fun w => w.toList == t then some false
  else none

def isNull (t : Text) : Bool :=
  t.isEmpty || ["null", "Null", "NULL", "~"].any fun w => w.toList == t

/-- the value of digits in a base, at least one digit -/
def valueIn? (base : Nat) (t : Text) : Option Nat :=
  if t.isEmpty then none
  else
    t.foldlM (fun n c => do
      let d ← Text.hexValue? c
      if d < base then some (base * n + d) else none) 0

/-- whether a zero stands before other digits -/
def hasLeadingZero : Text → Bool
  | '0' :: c :: rest => (c :: rest).all Char.isDigit
  | _ => false

/-- the natural number of a scalar: decimal, or in another base after 0x, 0o or 0b -/
def naturalOf? (t : Text) : Option Nat :=
  let digits := match t with
    | '+' :: rest => rest
    | _ => t
  match digits with
  | '0' :: 'x' :: rest => valueIn? 16 rest
  | '0' :: 'o' :: rest => valueIn? 8 rest
  | '0' :: 'b' :: rest => valueIn? 2 rest
  | _ => if hasLeadingZero digits then none else valueIn? 10 digits

/-! ## views -/

namespace Document

def text? (d : Document) : Option Text :=
  match d.target? with
  | some (.scalar _ _ t) => some t
  | _ => none

/-- A record by names; the empty scalar is one without fields. -/
def record? (d : Document) : Option (Record Document) :=
  match d.target? with
  | some (.scalar .plain _ []) => some (.named [])
  | some (.mapping entries) =>
    (entries.mapM fun (key, value) => (d.part key).text?.map (·, d.part value)).map .named
  | _ => none

/-- A name, as a scalar or as the tag of nothing. -/
def name? (d : Document) : Option Text :=
  match d.target? with
  | some (.scalar style tag t) =>
    match tag.bind Tag.ownName? with
    | some name => if style = .plain ∧ isNull t then some name else none
    | none => some t
  | _ => none

/-- The text of a scalar that may be more than a text: without quotes, or a literal block whose tag
says that it is one of `kind`. -/
def bareText? (kind : String) (d : Document) : Option Text :=
  match d.target? with
  | some (.scalar .plain _ t) => some t
  | some (.scalar .literal tag t) => if tag = some (Tag.standard kind) then some t else none
  | _ => none

def truth? (d : Document) : Option Bool := (d.bareText? "bool").bind truthOf?

def word? (d : Document) : Option UInt64 :=
  (((d.bareText? "int").bind naturalOf?).filter (· < UInt64.size)).map UInt64.ofNat

instance : Source Document where
  record? := record?
  name? := name?
  truth? := truth?
  word? := word?

end Document

end FormatInverse.Yaml
