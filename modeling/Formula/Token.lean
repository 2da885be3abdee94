import Formula.Double.Shortest
import Formula.Operator
import Formula.Text.Quoted
import Formula.Timestamp

/-! The tokens of a source. -/

namespace Formula

/-- A number is not yet negated when it becomes a token, so whole numbers have no sign here. -/
inductive Token
  | instant (value : Instant)
  | double (value : Double)
  | long (value : Nat)
  | int (value : Nat)
  | string (value : String)
  | boolean (value : Bool)
  | identifier (name : String)
  | dot
  | arithmetic (op : Arithmetic)
  | relation (op : Relation)
  | connective (op : Connective)
  | openParen
  | closeParen
  deriving DecidableEq

def Token.text : Token → String
  | .instant value => value.text
  | .double value => value.text
  | .long value => toString value ++ "L"
  | .int value => toString value
  | .string value => Text.shown value
  | .boolean value => toString value
  | .identifier name => name
  | .dot => "."
  | .arithmetic op => op.symbol
  | .relation op => op.symbol
  | .connective op => op.symbol
  | .openParen => "("
  | .closeParen => ")"

structure Located where
  token : Token
  offset : Nat
  deriving DecidableEq

end Formula
