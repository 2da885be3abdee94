/-! The operators of the language and their symbols. -/

namespace Formula

inductive Arithmetic
  | add
  | sub
  | mul
  | div
  deriving DecidableEq, Repr

inductive Relation
  | eq
  | ne
  | lt
  | le
  | gt
  | ge
  deriving DecidableEq, Repr

inductive Connective
  | and
  | or
  deriving DecidableEq, Repr

def Arithmetic.symbol : Arithmetic → String
  | .add => "+"
  | .sub => "-"
  | .mul => "*"
  | .div => "/"

namespace Relation

def symbol : Relation → String
  | .eq => "=="
  | .ne => "!="
  | .lt => "<"
  | .le => "<="
  | .gt => ">"
  | .ge => ">="

/-- Whether two values in the given order are in the relation; values without an order are merely
different. -/
def holds : Relation → Option Ordering → Bool
  | .eq, order => order == some .eq
  | .ne, order => order != some .eq
  | .lt, order => order == some .lt
  | .le, order => order == some .lt || order == some .eq
  | .gt, order => order == some .gt
  | .ge, order => order == some .gt || order == some .eq

end Relation

namespace Connective

def symbol : Connective → String
  | .and => "&&"
  | .or => "||"

/-- The left operand alone decides when it is this value. -/
def decisive : Connective → Bool
  | .and => false
  | .or => true

end Connective

end Formula
