import Formula.Bindings
import Formula.Expr

/-! Evaluation of expressions, with the record of everything that was looked up. -/

namespace Formula

inductive EvalError
  | variableNotFound (name missing : String)
  | kindMismatch (name : String) (expected found : Kind)
  | divisionByZero (kind : Kind)
  | overflow (op : Arithmetic) (kind : Kind)
  deriving DecidableEq, Repr

def EvalError.message : EvalError → String
  | .variableNotFound name missing =>
    if name = missing then s!"Variable '{name}' not found."
    else s!"Variable '{name}' not found: nothing is bound to '{missing}'."
  | .kindMismatch name expected found =>
    s!"Variable '{name}' holds a {found.name} value where a {expected.name} is required."
  | .divisionByZero kind => s!"Division by zero in {kind.name} arithmetic."
  | .overflow op kind => s!"{kind.name} overflow while computing '{op.symbol}'."

/-- A result, and the lookups that led to it in their order. -/
structure Outcome (α : Type) where
  lookups : List Lookup
  result : Except EvalError α

namespace Outcome

variable {α β : Type}

def pure (a : α) : Outcome α := ⟨[], .ok a⟩

def bind (first : Outcome α) (second : α → Outcome β) : Outcome β :=
  match first.result with
  | .error e => ⟨first.lookups, .error e⟩
  | .ok a => ⟨first.lookups ++ (second a).lookups, (second a).result⟩

instance : Monad Outcome where
  pure := pure
  bind := bind

def ofResult (result : Except EvalError α) : Outcome α := ⟨[], result⟩

end Outcome

/-- Integer arithmetic without limits; division drops the fraction. -/
def Arithmetic.exact : Arithmetic → Int → Int → Int
  | .add, a, b => a + b
  | .sub, a, b => a - b
  | .mul, a, b => a * b
  | .div, a, b => a.tdiv b

def Whole.apply {width : Width} (op : Arithmetic) (a b : Whole width) :
    Except EvalError (Whole width) :=
  if op = .div ∧ b.val = 0 then .error (.divisionByZero (.whole width))
  else
    match Whole.ofInt? width (op.exact a.val b.val) with
    | some result => .ok result
    | none => .error (.overflow op (.whole width))

def Double.apply (op : Arithmetic) (x y : Double) : Double :=
  match op with
  | .add => x + y
  | .sub => x - y
  | .mul => x * y
  | .div => x / y

def Numeric.apply : (n : Numeric) → Arithmetic → n.Carrier → n.Carrier → Except EvalError n.Carrier
  | .whole _, op, a, b => Whole.apply op a b
  | .double, op, x, y => .ok (Double.apply op x y)

namespace Context

def askValue (c : Context) (path : List String) (name : String) : Outcome (Option Value) :=
  ⟨[.value path name], .ok (c.value path name)⟩

def askChild (c : Context) (path : List String) (name : String) : Outcome Bool :=
  ⟨[.child path name], .ok (c.hasChild path name)⟩

/-- The value at the end of a row of segments, all but the last of which are children. -/
def find (c : Context) (name : String) (path : List String) (segment : String) :
    List String → Outcome Value
  | [] => do
    match ← c.askValue path segment with
    | some v => return v
    | none => .ofResult (.error (.variableNotFound name segment))
  | next :: rest => do
    if ← c.askChild path segment then c.find name (path ++ [segment]) next rest
    else .ofResult (.error (.variableNotFound name segment))

def resolve (c : Context) (kind : Kind) (name : String) : Outcome kind.Carrier := do
  let segments := Name.ofText name
  let v ← c.find name [] segments.first segments.rest
  match v.as? kind with
  | some content => return content
  | none => .ofResult (.error (.kindMismatch name kind v.kind))

end Context

namespace Expr

/-- Operands are evaluated from left to right; a connective whose left operand decides leaves the
right one alone. -/
def run (c : Context) : {k : Kind} → Expr k → Outcome k.Carrier
  | _, .const value => return value
  | k, .var name => c.resolve k name
  | _, .arith (n := n) op left right => do
    let a ← left.run c
    let b ← right.run c
    .ofResult (n.apply op a b)
  | _, .compare (o := o) op left right => do
    let a ← left.run c
    let b ← right.run c
    return op.holds (o.compare a b)
  | _, .logic op left right => do
    let a ← left.run c
    if a = op.decisive then return a else right.run c

def eval (c : Context) {k : Kind} (e : Expr k) : Except EvalError k.Carrier := (e.run c).result

end Expr

end Formula
