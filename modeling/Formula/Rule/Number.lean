import Formula.Expr
import Formula.Rule

/-! The rules of arithmetic expressions. -/

namespace Formula

def Token.arithmetic? : Token → Option Arithmetic
  | .arithmetic op => some op
  | _ => none

namespace Numeric

def expected : Numeric → String
  | .whole .int => "an int literal, a variable or '('"
  | .whole .long => "a long literal, a variable or '('"
  | .double => "a double literal, a variable or '('"

def digits? : Width → Token → Option Nat
  | .int, .int n => some n
  | .long, .long n => some n
  | _, _ => none

def signed (negative : Bool) (n : Nat) : Int := if negative then -n else n

def literalTooLarge (negative : Bool) (start : Nat) (token : Token) : ParseError :=
  .literalTooLarge ((if negative then "-" else "") ++ token.text) start

/-- The number that a token of the kind stands for after its sign, or the error, blamed at the start
of the literal, when the kind does not reach so far. -/
def literal? (negative : Bool) (start : Nat) (token : Token) :
    (n : Numeric) → Option (Except ParseError n.Carrier)
  | .whole width =>
    (digits? width token).map fun n =>
      match Whole.ofInt? width (signed negative n) with
      | some value => .ok value
      | none => .error (literalTooLarge negative start token)
  | .double =>
    match token with
    | .double x => some (.ok (if negative then x.neg else x))
    | _ => none

end Numeric

namespace Rule

variable {n : Numeric}

def name {kind : Kind} : Rule (Expr kind) := .var <$> dottedName

def literal (n : Numeric) (negative : Bool) (start : Nat) : Rule (Expr (.number n)) := do
  match ← next with
  | none => throw (.unexpectedEndOfInput n.expected (← offset))
  | some t =>
    match n.literal? negative start t.token with
    | none => throw (.unexpectedToken t.token.text n.expected t.offset)
    | some (.error e) => throw e
    | some (.ok value) => return .const value

/-- A literal with or without a sign, a variable, or a parenthesis with what `inner` accepts. -/
def factorOver (inner : Rule (Expr (.number n))) : Rule (Expr (.number n)) := do
  match ← peek with
  | some .openParen => parenthesized inner
  | some (.identifier _) => name
  | some (.arithmetic .sub) =>
    let start ← offset
    let _ ← next
    literal n true start
  | _ => literal n false (← offset)

def joinProduct (token : Token) : Option (Expr (.number n) → Expr (.number n) → Expr (.number n)) :=
  match token.arithmetic? with
  | some .mul => some (.arith .mul)
  | some .div => some (.arith .div)
  | _ => none

def joinSum (token : Token) : Option (Expr (.number n) → Expr (.number n) → Expr (.number n)) :=
  match token.arithmetic? with
  | some .add => some (.arith .add)
  | some .sub => some (.arith .sub)
  | _ => none

def productOver (inner : Rule (Expr (.number n))) : Rule (Expr (.number n)) :=
  chain (factorOver inner) joinProduct

def sumOver (inner : Rule (Expr (.number n))) : Rule (Expr (.number n)) :=
  chain (productOver inner) joinSum

def sumWithin (n : Numeric) : Nat → Rule (Expr (.number n))
  | 0 => sumOver exhausted
  | depth + 1 => sumOver (sumWithin n depth)

/-- A sum; there are no more parentheses in it than there are tokens. -/
def sum (n : Numeric) : Rule (Expr (.number n)) := do sumWithin n (← remaining)

def product (n : Numeric) : Rule (Expr (.number n)) := do productOver (sumWithin n (← remaining))

def factor (n : Numeric) : Rule (Expr (.number n)) := do factorOver (sumWithin n (← remaining))

end Rule

end Formula
