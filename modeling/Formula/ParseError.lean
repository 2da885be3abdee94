import Formula.Timestamp

/-! The ways in which a source fails to be an expression. -/

namespace Formula

/-- Why a source is no expression. Every cause carries the byte offset at which it was found. -/
inductive ParseError
  | invalidToken (text : String) (offset : Nat)
  | invalidDateTime (literal : String) (reason : DateTimeError) (offset : Nat)
  | literalTooLarge (literal : String) (offset : Nat)
  | unexpectedToken (token expected : String) (offset : Nat)
  | unexpectedEndOfInput (expected : String) (offset : Nat)
  | unexpectedTrailingTokens (token : String) (offset : Nat)
  | noMatchingAlternative (furthest : Nat) (trace : List String)
  | nestingTooDeep (limit : Nat) (offset : Nat)
  deriving DecidableEq, Repr

namespace ParseError

def offset : ParseError → Nat
  | .invalidToken _ offset
  | .invalidDateTime _ _ offset
  | .literalTooLarge _ offset
  | .unexpectedToken _ _ offset
  | .unexpectedEndOfInput _ offset
  | .unexpectedTrailingTokens _ offset
  | .noMatchingAlternative offset _
  | .nestingTooDeep _ offset => offset

def trace : ParseError → List String
  | .noMatchingAlternative _ trace => trace
  | _ => []

def reason : ParseError → String
  | .invalidToken text _ => s!"Unrecognized input '{text}'."
  | .invalidDateTime literal reason _ =>
    s!"Invalid date-time literal '{literal}': {reason.message}."
  | .literalTooLarge literal _ => s!"Literal {literal} is too large."
  | .unexpectedToken token expected _ => s!"Unexpected token '{token}', expected {expected}."
  | .unexpectedEndOfInput expected _ => s!"Unexpected end of input, expected {expected}."
  | .unexpectedTrailingTokens token _ =>
    s!"Extra tokens after expression, starting with '{token}'."
  | .noMatchingAlternative _ trace =>
    "No alternative matched." ++ String.join (trace.map ("\n  " ++ ·))
  | .nestingTooDeep limit _ => s!"Parentheses nest deeper than {limit} levels."

def message (e : ParseError) : String := s!"Error at offset {e.offset}: {e.reason}"

/-- The lines that a failed alternative adds to the trace of its choice. A choice within an
alternative is listed line by line. -/
def linesUnder (label : String) : ParseError → List String
  | .noMatchingAlternative _ trace => trace.map fun line => s!"{label} > {line}"
  | e => [s!"{label}: {e.message}"]

end ParseError

end Formula
