import Formula.Value

/-! What an expression may ask of its surroundings. -/

namespace Formula

/-- A question about a name, put to the child that a path of names leads to. -/
inductive Lookup
  | value (path : List String) (name : String)
  | child (path : List String) (name : String)
  deriving DecidableEq, Repr

/-- The values of names and the existence of children, at every path. A name may have both. -/
structure Context where
  value : List String → String → Option Value
  hasChild : List String → String → Bool

namespace Context

def empty : Context := ⟨fun _ _ => none, fun _ _ => false⟩

def flat (value : String → Option Value) : Context where
  value path name := if path = [] then value name else none
  hasChild _ _ := false

end Context

end Formula
