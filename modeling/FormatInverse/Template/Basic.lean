import FormatInverse.Layout.Matcher

/-!
# Templates

A template is a template text together with its terms and its layout, and the configuration under
which it was compiled.  `Template.compile` makes one, or tells why there is none: an unusable
configuration comes first, then a text that is too long, then the first fault in the text, then a
limit on the size of patterns that no pattern can keep.

Whether the pattern of the layout at hand keeps that limit is not asked.  Under a limit between
`Layout.smallestProgram` and the size of its program a template is compiled here although its
pattern is too large.
-/

namespace FormatInverse

structure Template where
  text : Text
  terms : List Term
  layout : Layout
  config : Config
  deriving DecidableEq, Repr

inductive CompileError where
  | invalidConfig (e : ConfigError)
  | templateTooLong (length : Nat) (limit : UInt64)
  | template (e : TemplateError)
  | patternTooLarge (limit : UInt64)
  deriving DecidableEq, Repr

namespace CompileError

def message? : CompileError → Option String
  | invalidConfig e => e.message?
  | templateTooLong length limit =>
    let most := limit.toNat
    some s!"Template length {length} exceeds the limit of {most} bytes"
  | template e => some e.message
  | patternTooLarge limit =>
    let most := limit.toNat
    some s!"Compiled pattern rejected: Compiled regex exceeds size limit of {most} bytes."

/-- where the fault is, if it is a place in the template text -/
def offset? : CompileError → Option Nat
  | template e => some e.offset
  | _ => none

/-- whether the template is at fault, and not the configuration -/
def isTemplateError : CompileError → Bool
  | invalidConfig _ => false
  | _ => true

end CompileError

/-- The fault of every layout that is matched by its pattern, if the limit is below the size of the
smallest program.  A limit that only some programs exceed is not noticed. -/
def Layout.patternFault? (c : Config) : Option CompileError :=
  match c.strategy with
  | .regex =>
    if c.limits.patternSize.toNat < smallestProgram then
      some (.patternTooLarge c.limits.patternSize)
    else none
  | .delimited => none

namespace Template

/-- The template of a list of tokens. -/
def ofTokens (config : Config) (text : Text) (toks : List Token) : Template :=
  let (pieces, terms) := Term.place [] toks
  ⟨text, terms, .ofPieces pieces, config⟩

def compile (config : Config) (text : Text) : Except CompileError Template := do
  if let some e := config.fault? then throw (.invalidConfig e)
  if config.limits.maxTemplateLength.toNat < Text.bytes text then
    throw (.templateTooLong (Text.bytes text) config.limits.maxTemplateLength)
  let toks ← (tokens config.limits.maxIndex text).mapError .template
  if let some e := Layout.patternFault? config then throw e
  return ofTokens config text toks

/-- the term of an anchor -/
def term? (t : Template) (anchor : Text) : Option Term := Term.find? t.terms anchor

def slotCount (t : Template) : Nat := t.layout.slotCount

def maxIndex? (t : Template) : Option UInt64 := Term.maxIndex? t.terms

/-- the text of the pattern, where there is one -/
def pattern? (t : Template) : Option Text := t.layout.source? t.config.strategy t.config.capture

end Template

end FormatInverse
