import Formula.ParseError
import Formula.Token

/-! Grammar rules: steps that take tokens from the front of a row and make a value of them. -/

namespace Formula

/-- The tokens still to come, and the offset at which the source ends. -/
structure Cursor where
  tokens : List Located
  stop : Nat
  deriving DecidableEq

def Cursor.offset (c : Cursor) : Nat :=
  match c.tokens with
  | [] => c.stop
  | t :: _ => t.offset

/-- A rule that fails leaves the cursor where it stopped. -/
abbrev Rule (α : Type) := EStateM ParseError Cursor α

namespace Rule

variable {α : Type}

def offset : Rule Nat := return (← get).offset

def remaining : Rule Nat := return (← get).tokens.length

def peek : Rule (Option Token) := return (← get).tokens.head?.map Located.token

def next : Rule (Option Located) := do
  let c ← get
  match c.tokens with
  | [] => return none
  | t :: rest =>
    set { c with tokens := rest }
    return some t

def take (expected : String) (read : Token → Option α) : Rule α := do
  match ← next with
  | none => throw (.unexpectedEndOfInput expected (← offset))
  | some t =>
    match read t.token with
    | some a => return a
    | none => throw (.unexpectedToken t.token.text expected t.offset)

def refuse (expected : String) : Rule α := do
  match ← peek with
  | none => throw (.unexpectedEndOfInput expected (← offset))
  | some token => throw (.unexpectedToken token.text expected (← offset))

def expect (token : Token) : Rule Unit :=
  take s!"'{token.text}'" fun t => if t = token then some () else none

/-- Joins the operands that follow to `left`, as long as one of at most `steps` operators stands
before them. -/
def chainFrom (operand : Rule α) (join : Token → Option (α → α → α)) : Nat → α → Rule α
  | 0, left => return left
  | steps + 1, left => do
    match (← peek).bind join with
    | none => return left
    | some combine =>
      let _ ← next
      let right ← operand
      chainFrom operand join steps (combine left right)

def chain (operand : Rule α) (join : Token → Option (α → α → α)) : Rule α := do
  let left ← operand
  chainFrom operand join (← remaining) left

/-- The value of the first rule that succeeds where `start` stands. The failures before it leave
nothing behind; if all fail, they are listed, under the furthest of their offsets. -/
def firstOf (start : Cursor) :
    List (String × Rule α) → Nat → List String → EStateM.Result ParseError Cursor α
  | [], furthest, trace => .error (.noMatchingAlternative furthest trace) start
  | (label, rule) :: rest, furthest, trace =>
    match rule start with
    | .ok a after => .ok a after
    | .error e _ => firstOf start rest (max furthest e.offset) (trace ++ e.linesUnder label)

def choice (alternatives : List (String × Rule α)) : Rule α := fun start =>
  firstOf start alternatives start.offset []

def parenthesized (inner : Rule α) : Rule α := do
  expect .openParen
  let a ← inner
  expect .closeParen
  return a

/-- Stands where no parenthesis may be opened any more. -/
def exhausted : Rule α := do throw (.nestingTooDeep 0 (← offset))

def identifier : Rule String :=
  take "an identifier" fun
    | .identifier name => some name
    | _ => none

def dottedName : Rule String :=
  chain identifier fun
    | .dot => some fun left right => left ++ "." ++ right
    | _ => none

end Rule

end Formula
