import FormatInverse.Template.Recover

/-!
# Log records

What compiling a template, recovering from an input and matching an input leave in the log.
-/

namespace FormatInverse

inductive LogLevel where
  | debug
  | trace
  deriving DecidableEq, Repr

structure LogRecord where
  level : LogLevel
  text : String
  deriving DecidableEq, Repr

namespace LogRecord

private def shown (t : Text) : String := String.ofList (Text.quoted t)

def strategyName : Strategy → String
  | .regex => "Regex"
  | .delimited => "Delimited"

/-- the record of a compiled template -/
def compiled (t : Template) : LogRecord :=
  let text := shown t.text
  let terms := t.terms.length
  let slots := t.slotCount
  let strategy := strategyName t.config.strategy
  ⟨.debug, s!"Compiled template {text}: {terms} terms, {slots} slots, strategy {strategy}"⟩

/-- the record of a template in which slots stand side by side -/
def adjacent (t : Template) : LogRecord :=
  let text := shown t.text
  let pairs := t.layout.adjacentPairs
  ⟨.debug, s!"Template {text} has {pairs} adjacent placeholder pairs without separating text"⟩

/-- the record of an input that the layout of the template does not match -/
def noMatch (t : Template) (input : Text) : LogRecord :=
  let text := shown t.text
  let given := shown input
  ⟨.trace, s!"Input {given} does not match template {text}"⟩

/-- the record of a match that is rejected -/
def rejected (anchor first later : Text) : LogRecord :=
  let name := shown anchor
  let one := shown first
  let other := shown later
  ⟨.debug, s!"Anchor {name} captured {one} and {other}, rejecting match"⟩

end LogRecord

namespace Template

/-- The records of compiling the template. -/
def compileLog (t : Template) : List LogRecord :=
  if t.layout.adjacentPairs = 0 then [.compiled t] else [.compiled t, .adjacent t]

/-- The records of recovering from an input. -/
def recoverLog (t : Template) (input : Text) : List LogRecord :=
  match t.attempt input with
  | .noSplit => [.noMatch t input]
  | .conflict anchor first later => [.rejected anchor first later]
  | .unfilled => []
  | .filled _ => []

/-- The records of asking whether an input matches. -/
def matchLog (t : Template) (input : Text) : List LogRecord :=
  if t.mayConflict then
    match t.attempt input with
    | .conflict anchor first later => [.rejected anchor first later]
    | _ => []
  else []

end Template

end FormatInverse
