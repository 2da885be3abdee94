import Formula.Source.Tokens
import Formula.Whole

/-! Values, their order and their literal forms. -/

namespace Formula

@[reducible] def Numeric.Carrier : Numeric → Type
  | .whole width => Whole width
  | .double => Double

@[reducible] def Ordered.Carrier : Ordered → Type
  | .string => String
  | .instant => Instant
  | .number n => n.Carrier

@[reducible] def Kind.Carrier : Kind → Type
  | .ordered o => o.Carrier
  | .boolean => Bool

def Numeric.compare : (n : Numeric) → n.Carrier → n.Carrier → Option Ordering
  | .whole _, a, b => some (Ord.compare a.val b.val)
  | .double, a, b => Double.compare a b

/-- Texts are ordered by their code points. -/
def Ordered.compare : (o : Ordered) → o.Carrier → o.Carrier → Option Ordering
  | .string, a, b => some (compareOfLessAndEq a b)
  | .instant, a, b => some (a.compare b)
  | .number n, a, b => n.compare a b

def Kind.compare : (k : Kind) → k.Carrier → k.Carrier → Option Ordering
  | .ordered o, a, b => o.compare a b
  | .boolean, a, b => some (Ord.compare a.toNat b.toNat)

def Kind.literal : (k : Kind) → k.Carrier → String
  | .whole .int, n => n.text
  | .whole .long, n => n.text ++ "L"
  | .double, x => x.literal
  | .string, text => Text.literal text
  | .instant, i => i.text
  | .boolean, b => toString b

def Kind.text : (k : Kind) → k.Carrier → String
  | .whole _, n => n.text
  | .double, x => x.text
  | .string, text => text
  | .instant, i => i.text
  | .boolean, b => toString b

structure Value where
  kind : Kind
  content : kind.Carrier

namespace Value

def as? (kind : Kind) (v : Value) : Option kind.Carrier :=
  if same : v.kind = kind then some (same ▸ v.content) else none

theorem as?_mk (kind : Kind) (content : kind.Carrier) : (mk kind content).as? kind = some content := by
  simp [as?]

theorem as?_eq_none_iff {kind : Kind} {v : Value} : v.as? kind = none ↔ v.kind ≠ kind := by
  simp [as?]

/-- Equality of kinds and contents. Not-a-number differs from itself, and the two zeros are equal. -/
def same (v w : Value) : Bool :=
  match w.as? v.kind with
  | some content => v.kind.compare v.content content == some .eq
  | none => false

def literal (v : Value) : String := v.kind.literal v.content

/-- A whole number in the smallest width that holds it. -/
def ofWhole? (n : Int) : Option Value :=
  match Whole.ofInt? .int n with
  | some small => some ⟨.int, small⟩
  | none => (Whole.ofInt? .long n).map fun large => ⟨.long, large⟩

def ofLong? (n : Int) : Option Value := (Whole.ofInt? .long n).map fun long => ⟨.long, long⟩

/-- The value of a row of tokens that is one literal, or a minus sign and a number. -/
def ofTokens? : List Token → Option Value
  | [.int n] => ofWhole? n
  | [.long n] => ofLong? n
  | [.double x] => some ⟨.double, x⟩
  | [.string text] => some ⟨.string, text⟩
  | [.instant i] => some ⟨.instant, i⟩
  | [.boolean b] => some ⟨.boolean, b⟩
  | [.arithmetic .sub, .int n] => ofWhole? (-n)
  | [.arithmetic .sub, .long n] => ofLong? (-n)
  | [.arithmetic .sub, .double x] => some ⟨.double, x.neg⟩
  | _ => none

/-- The value of a literal; any other text stands for itself. -/
def ofText (text : String) : Value :=
  match Source.tokens text with
  | .ok tokens => (ofTokens? (tokens.map Located.token)).getD ⟨.string, text⟩
  | .error _ => ⟨.string, text⟩

end Value

end Formula
