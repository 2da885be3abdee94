import Formula.Rule.Condition

/-! From the tokens of a source to the expression it is. -/

namespace Formula

inductive Goal
  | boolean
  | number (n : Numeric)
  deriving DecidableEq, Repr

namespace Goal

@[reducible] def kind : Goal → Kind
  | .boolean => .boolean
  | .number n => .number n

def rule : (goal : Goal) → Rule (Expr goal.kind)
  | .boolean => Rule.condition
  | .number n => Rule.sum n

end Goal

namespace Source

def defaultLimit : Nat := 64

/-- Counts the parentheses that are open; one that closes nothing does not count. Fails at the first
one that opens beyond the limit. -/
def checkNesting (limit : Nat) : Nat → List Located → Except ParseError Unit
  | _, [] => .ok ()
  | opened, t :: rest =>
    match t.token with
    | .openParen =>
      if limit ≤ opened then .error (.nestingTooDeep limit t.offset)
      else checkNesting limit (opened + 1) rest
    | .closeParen => checkNesting limit (opened - 1) rest
    | _ => checkNesting limit opened rest

variable {α : Type}

def complete (rule : Rule α) (start : Cursor) : Except ParseError α :=
  match rule start with
  | .error e _ => .error e
  | .ok a after =>
    match after.tokens with
    | [] => .ok a
    | t :: _ => .error (.unexpectedTrailingTokens t.token.text t.offset)

def parseTokens (rule : Rule α) (limit : Nat) (start : Cursor) : Except ParseError α := do
  checkNesting limit 0 start.tokens
  complete rule start

def parse (rule : Rule α) (limit : Nat) (source : String) : Except ParseError α := do
  let tokens ← Source.tokens source
  parseTokens rule limit ⟨tokens, source.utf8ByteSize⟩

section Tokens

variable {rule : Rule α} {limit : Nat} {source : String}

theorem parse_eq_parseTokens {located : List Located} (read : tokens source = .ok located) :
    parse rule limit source = parseTokens rule limit ⟨located, source.utf8ByteSize⟩ := by
  rw [parse, read]
  rfl

theorem parse_eq_error {e : ParseError} (failed : tokens source = .error e) :
    parse rule limit source = .error e := by
  rw [parse, failed]
  rfl

end Tokens

end Source

def Expr.ofSource (goal : Goal) (limit : Nat) (source : String) :
    Except ParseError (Expr goal.kind) :=
  Source.parse goal.rule limit source

end Formula
