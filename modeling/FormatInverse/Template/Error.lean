import FormatInverse.Text.Quoted

/-!
# Faults of a template text

`TemplateError` names what is wrong with a template and the byte offset where it shows; `message`
words it for a reader.
-/

namespace FormatInverse

/-- what would have continued a placeholder -/
inductive Expected where
  | indexDigit
  | sectionOrEnd
  deriving DecidableEq, Repr

namespace Expected

def text : Expected → String
  | indexDigit => "a placeholder index digit"
  | sectionOrEnd => "',', ':' or '\x7d'"

end Expected

/-- what is wrong with the span section of a placeholder -/
inductive SpanFault where
  | noDigits
  | tooWide (written : Text)
  deriving DecidableEq, Repr

namespace SpanFault

def text : SpanFault → String
  | noDigits => "expected an optional '-' followed by digits"
  | tooWide written =>
    let digits := String.ofList written
    s!"{digits} does not fit in a 32-bit width"

end SpanFault

inductive TemplateError where
  | unexpectedCharacter (offset : Nat) (found : Char) (expected : Expected)
  | invalidSpan (offset : Nat) (fault : SpanFault)
  | invalidFormatCharacter (offset : Nat) (found : Char)
  /-- the text ends inside the placeholder that opens at `offset` -/
  | unterminatedPlaceholder (offset : Nat)
  | unbalancedBrace (offset : Nat)
  | indexOutOfRange (offset : Nat) (digits : Text) (limit : UInt64)
  deriving DecidableEq, Repr

namespace TemplateError

def offset : TemplateError → Nat
  | unexpectedCharacter offset _ _ => offset
  | invalidSpan offset _ => offset
  | invalidFormatCharacter offset _ => offset
  | unterminatedPlaceholder offset => offset
  | unbalancedBrace offset => offset
  | indexOutOfRange offset _ _ => offset

def message : TemplateError → String
  | unexpectedCharacter offset found expected =>
    let shown := String.ofList (Text.quotedChar found)
    let wanted := expected.text
    s!"Unexpected character {shown} in placeholder at offset {offset}, expected {wanted}"
  | invalidSpan offset fault =>
    let reason := fault.text
    s!"Invalid alignment span at offset {offset}: {reason}"
  | invalidFormatCharacter offset found =>
    let shown := String.ofList (Text.quotedChar found)
    s!"Invalid character {shown} in format specification at offset {offset}"
  | unterminatedPlaceholder offset => s!"Unterminated placeholder starting at offset {offset}"
  | unbalancedBrace offset =>
    s!"Unbalanced closing brace at offset {offset}, use '\x7d\x7d' for a literal brace"
  | indexOutOfRange offset digits limit =>
    let index := String.ofList digits
    let most := limit.toNat
    s!"Placeholder index {index} at offset {offset} exceeds the limit of {most}"

end TemplateError

end FormatInverse
