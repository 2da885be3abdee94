import Formula.Value

/-! Typed expressions, their equality and their written form. -/

namespace Formula

/-- An expression of a kind. Operands of a node all have the one kind the node works on. -/
inductive Expr : Kind → Type
  | const {kind : Kind} (value : kind.Carrier) : Expr kind
  | var {kind : Kind} (name : String) : Expr kind
  | arith {n : Numeric} (op : Arithmetic) (left right : Expr (.ordered (.number n))) :
      Expr (.ordered (.number n))
  | compare {o : Ordered} (op : Relation) (left right : Expr (.ordered o)) : Expr .boolean
  | logic (op : Connective) (left right : Expr .boolean) : Expr .boolean

namespace Expr

def same : {k l : Kind} → Expr k → Expr l → Bool
  | k, l, .const v, .const w => Value.same ⟨k, v⟩ ⟨l, w⟩
  | k, l, .var name, .var name' => k == l && name == name'
  | _, _, .arith op left right, .arith op' left' right' =>
    op == op' && left.same left' && right.same right'
  | _, _, .compare op left right, .compare op' left' right' =>
    op == op' && left.same left' && right.same right'
  | _, _, .logic op left right, .logic op' left' right' =>
    op == op' && left.same left' && right.same right'
  | _, _, _, _ => false

def nodeText (left symbol right : String) : String :=
  "(" ++ left ++ " " ++ symbol ++ " " ++ right ++ ")"

def text : {k : Kind} → Expr k → String
  | k, .const v => k.literal v
  | _, .var name => name
  | _, .arith op left right => nodeText left.text op.symbol right.text
  | _, .compare op left right => nodeText left.text op.symbol right.text
  | _, .logic op left right => nodeText left.text op.symbol right.text

end Expr

end Formula
