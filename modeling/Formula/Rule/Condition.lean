import Formula.Rule.Number

/-! The rules of conditions: comparisons, and connectives between them. -/

namespace Formula

def Token.relation? : Token → Option Relation
  | .relation op => some op
  | _ => none

def Token.connective? : Token → Option Connective
  | .connective op => some op
  | _ => none

namespace Rule

def stringOperand : Rule (Expr .string) := do
  match ← peek with
  | some (.string text) =>
    let _ ← next
    return .const text
  | some (.identifier _) => name
  | _ => refuse "a string literal or a variable"

def instantOperand : Rule (Expr .instant) := do
  match ← peek with
  | some (.instant i) =>
    let _ ← next
    return .const i
  | some (.identifier _) => name
  | _ => refuse "a date-time literal or a variable"

def operandWithin (depth : Nat) : (o : Ordered) → Rule (Expr (.ordered o))
  | .string => stringOperand
  | .instant => instantOperand
  | .number n => sumWithin n depth

def comparisonWithin (depth : Nat) (o : Ordered) : Rule (Expr .boolean) := do
  let left ← operandWithin depth o
  let op ← take "a relational operator" Token.relation?
  let right ← operandWithin depth o
  return .compare op left right

/-- A comparison of operands of the first kind that fits, in the order of the alternatives. -/
def relationWithin (depth : Nat) : Rule (Expr .boolean) :=
  choice
    [("string", comparisonWithin depth .string),
     ("date-time", comparisonWithin depth .instant),
     ("int", comparisonWithin depth (.number (.whole .int))),
     ("long", comparisonWithin depth (.number (.whole .long))),
     ("double", comparisonWithin depth (.number .double))]

def booleanLiteral : Rule (Expr .boolean) :=
  take "'true' or 'false'" fun
    | .boolean b => some (.const b)
    | _ => none

def termOver (relation inner : Rule (Expr .boolean)) : Rule (Expr .boolean) :=
  choice
    [("comparison", relation),
     ("parenthesized", parenthesized inner),
     ("boolean literal", booleanLiteral),
     ("boolean variable", name)]

def joinCondition (token : Token) :
    Option (Expr .boolean → Expr .boolean → Expr .boolean) :=
  token.connective?.map fun op => .logic op

def conditionOver (relation inner : Rule (Expr .boolean)) : Rule (Expr .boolean) :=
  chain (termOver relation inner) joinCondition

def conditionWithin : Nat → Rule (Expr .boolean)
  | 0 => conditionOver (relationWithin 0) exhausted
  | depth + 1 => conditionOver (relationWithin (depth + 1)) (conditionWithin depth)

def operand (o : Ordered) : Rule (Expr (.ordered o)) := do operandWithin (← remaining) o

def comparison (o : Ordered) : Rule (Expr .boolean) := do comparisonWithin (← remaining) o

def relation : Rule (Expr .boolean) := do relationWithin (← remaining)

def term : Rule (Expr .boolean) := do
  let depth ← remaining
  termOver (relationWithin depth) (conditionWithin depth)

/-- A condition; there are no more parentheses in it than there are tokens. -/
def condition : Rule (Expr .boolean) := do conditionWithin (← remaining)

end Rule

end Formula
