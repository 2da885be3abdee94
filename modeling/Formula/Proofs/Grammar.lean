import Formula.Expr
import Formula.Token

/-! The grammar of the language, as relations between rows of tokens and what they read as. -/

namespace Formula

inductive ReadsName : List Token → String → Prop
  | identifier (text : String) : ReadsName [.identifier text] text
  | dotted {ts : List Token} {name : String} (text : String) :
      ReadsName ts name → ReadsName (ts ++ [.dot, .identifier text]) (name ++ "." ++ text)

inductive Level
  | factor
  | product
  | sum
  deriving DecidableEq, Repr

def Arithmetic.level : Arithmetic → Level
  | .mul | .div => .product
  | .add | .sub => .sum

def Token.whole : Width → Nat → Token
  | .int, digits => .int digits
  | .long, digits => .long digits

/-- The number that a literal token of the kind is after its sign. A whole number lies within the
limits of its width. -/
def Numeric.Denotes : (n : Numeric) → Bool → Token → n.Carrier → Prop
  | .whole width, negative, token, value =>
    ∃ digits : Nat, token = .whole width digits ∧
      value.val = if negative then -(digits : Int) else digits
  | .double, negative, token, value =>
    ∃ x : Double, token = .double x ∧ value = if negative then x.neg else x

/-- The rows of each level of arithmetic in one kind. Chains of operators group from the left. -/
inductive ReadsNumber (n : Numeric) : Level → List Token → Expr (.number n) → Prop
  | parenthesized {ts : List Token} {e : Expr (.number n)} :
      ReadsNumber n .sum ts e → ReadsNumber n .factor (.openParen :: ts ++ [.closeParen]) e
  | name {ts : List Token} {text : String} :
      ReadsName ts text → ReadsNumber n .factor ts (.var text)
  | literal {t : Token} {value : n.Carrier} :
      n.Denotes false t value → ReadsNumber n .factor [t] (.const value)
  | negated {t : Token} {value : n.Carrier} :
      n.Denotes true t value → ReadsNumber n .factor [.arithmetic .sub, t] (.const value)
  | factor {ts : List Token} {e : Expr (.number n)} :
      ReadsNumber n .factor ts e → ReadsNumber n .product ts e
  | scaled {op : Arithmetic} {ls rs : List Token} {l r : Expr (.number n)} :
      op.level = .product → ReadsNumber n .product ls l → ReadsNumber n .factor rs r →
        ReadsNumber n .product (ls ++ .arithmetic op :: rs) (.arith op l r)
  | product {ts : List Token} {e : Expr (.number n)} :
      ReadsNumber n .product ts e → ReadsNumber n .sum ts e
  | shifted {op : Arithmetic} {ls rs : List Token} {l r : Expr (.number n)} :
      op.level = .sum → ReadsNumber n .sum ls l → ReadsNumber n .product rs r →
        ReadsNumber n .sum (ls ++ .arithmetic op :: rs) (.arith op l r)

inductive ReadsOperand : (o : Ordered) → List Token → Expr (.ordered o) → Prop
  | string (text : String) : ReadsOperand .string [.string text] (.const text)
  | stringName {ts : List Token} {text : String} :
      ReadsName ts text → ReadsOperand .string ts (.var text)
  | instant (i : Instant) : ReadsOperand .instant [.instant i] (.const i)
  | instantName {ts : List Token} {text : String} :
      ReadsName ts text → ReadsOperand .instant ts (.var text)
  | number {n : Numeric} {ts : List Token} {e : Expr (.number n)} :
      ReadsNumber n .sum ts e → ReadsOperand (.number n) ts e

inductive Clause
  | term
  | chain
  deriving DecidableEq, Repr

/-- The rows of conditions, of whose comparisons only some may be allowed, depending on the kind and
on the rows to the left and to the right of the relation. Chains of connectives group from the left,
whatever the connectives are. -/
inductive ReadsCondition (allowed : Ordered → List Token → List Token → Prop) :
    Clause → List Token → Expr .boolean → Prop
  | comparison {o : Ordered} {op : Relation} {ls rs : List Token} {l r : Expr (.ordered o)} :
      ReadsOperand o ls l → ReadsOperand o rs r → allowed o ls rs →
        ReadsCondition allowed .term (ls ++ .relation op :: rs) (.compare op l r)
  | parenthesized {ts : List Token} {e : Expr .boolean} :
      ReadsCondition allowed .chain ts e →
        ReadsCondition allowed .term (.openParen :: ts ++ [.closeParen]) e
  | literal (b : Bool) : ReadsCondition allowed .term [.boolean b] (.const b)
  | name {ts : List Token} {text : String} :
      ReadsName ts text → ReadsCondition allowed .term ts (.var text)
  | term {ts : List Token} {e : Expr .boolean} :
      ReadsCondition allowed .term ts e → ReadsCondition allowed .chain ts e
  | joined {op : Connective} {ls rs : List Token} {l r : Expr .boolean} :
      ReadsCondition allowed .chain ls l → ReadsCondition allowed .term rs r →
        ReadsCondition allowed .chain (ls ++ .connective op :: rs) (.logic op l r)

def Ordered.rank : Ordered → Nat
  | .string => 0
  | .instant => 1
  | .number (.whole .int) => 2
  | .number (.whole .long) => 3
  | .number .double => 4

def Fits (o : Ordered) (ls rs : List Token) : Prop :=
  (∃ l, ReadsOperand o ls l) ∧ ∃ r, ReadsOperand o rs r

/-- A bare name is compared with a row that goes on with an operator after a name. The two names are
a comparison of texts that leaves the operator behind. -/
def Captured (ls rs : List Token) : Prop :=
  (∃ name, ReadsName ls name) ∧
    ∃ front name op more, rs = front ++ .arithmetic op :: more ∧ ReadsName front name

/-- Comparisons are read in the first kind that fits. -/
structure Selected (o : Ordered) (ls rs : List Token) : Prop where
  first : ∀ o' : Ordered, o'.rank < o.rank → ¬ Fits o' ls rs
  whole : ¬ Captured ls rs

end Formula
