import Formula.Expr
import Formula.Proofs.Name

/-! The tokens that a printed expression becomes. -/

namespace Formula

namespace Numeric

def negative : (n : Numeric) → n.Carrier → Bool
  | .whole _, value => decide (value.val < 0)
  | .double, .nan => false
  | .double, .signed negative _ => negative

def unsigned : (n : Numeric) → n.Carrier → Token
  | .whole width, value => .whole width value.val.natAbs
  | .double, .nan => .double .nan
  | .double, .signed _ magnitude => .double (.signed false magnitude)

theorem denotes_unsigned (n : Numeric) (value : n.Carrier) :
    n.Denotes (n.negative value) (n.unsigned value) value := by
  match n, value with
  | .whole width, value =>
    refine ⟨value.val.natAbs, rfl, ?_⟩
    simp only [negative, decide_eq_true_eq]
    split <;> omega
  | .double, .nan => exact ⟨_, rfl, rfl⟩
  | .double, .signed false magnitude => exact ⟨_, rfl, rfl⟩
  | .double, .signed true magnitude => exact ⟨_, rfl, rfl⟩

end Numeric

namespace Kind

def tokens : (k : Kind) → k.Carrier → List Token
  | .number n, value =>
    if n.negative value then [.arithmetic .sub, n.unsigned value] else [n.unsigned value]
  | .string, text => [.string text]
  | .instant, i => [.instant i]
  | .boolean, b => [.boolean b]

def IsWritten : (k : Kind) → k.Carrier → Prop
  | .double, x => x.IsFinite
  | .instant, i => i.IsWritten
  | _, _ => True

end Kind

section Literals

variable {tail : List Char} {t : Token} {ts : List Token}

theorem Spells.signed (negative : Bool) {digits : List Char}
    (spells : Spells (digits ++ tail) (t :: ts)) :
    Spells ((if negative then ['-'] else []) ++ digits ++ tail)
      ((if negative then [.arithmetic .sub, t] else [t]) ++ ts) := by
  cases negative with
  | false => exact spells
  | true => exact spells.minus

theorem Whole.toList_text {width : Width} (n : Whole width) :
    n.text.toList = (if (Numeric.whole width).negative n then ['-'] else []) ++
      Nat.toDigits 10 n.val.natAbs := by
  rw [text, Int.toString_eq_repr, Int.repr_eq_if]
  simp only [Numeric.negative, decide_eq_true_eq]
  by_cases negative : n.val < 0
  · have magnitude : (-n.val).toNat = n.val.natAbs := by omega
    rw [if_neg (by omega), if_pos negative, magnitude]
    simp
  · have magnitude : n.val.toNat = n.val.natAbs := by omega
    rw [if_pos (by omega), if_neg negative, magnitude]
    simp

theorem Spells.intLiteral (n : Whole .int) (delimits : Delimits tail) (spells : Spells tail ts) :
    Spells ((Kind.int.literal n).toList ++ tail) (Kind.int.tokens n ++ ts) := by
  have small : n.val.natAbs ≤ Lexeme.greatestInt := by
    have fits := (Width.holds_int_iff _).mp n.fits
    simp only [Lexeme.greatestInt]
    omega
  have spelled := (spells.int small delimits).signed ((Numeric.whole .int).negative n)
  rw [← n.toList_text] at spelled
  exact spelled

theorem Spells.longLiteral (n : Whole .long) (spells : Spells tail ts) :
    Spells ((Kind.long.literal n).toList ++ tail) (Kind.long.tokens n ++ ts) := by
  have small : n.val.natAbs ≤ Lexeme.greatestLong := by
    have fits := (Width.holds_long_iff _).mp n.fits
    simp only [Lexeme.greatestLong]
    omega
  have spelled := (spells.long small).signed ((Numeric.whole .long).negative n)
  have shape : (Kind.long.literal n).toList ++ tail = n.text.toList ++ 'L' :: tail := by
    simp [Kind.literal]
  rw [shape, n.toList_text, List.append_assoc]
  rw [List.append_assoc] at spelled
  exact spelled

theorem Double.toList_literal {negative : Bool} {magnitude : Double.Magnitude}
    (finite : (Double.signed negative magnitude).IsFinite) :
    (Double.signed negative magnitude).literal.toList =
      (if negative then ['-'] else []) ++ magnitude.shortest.pointed.toList := by
  have below : magnitude.val < Double.infinite := finite
  have sign : (Double.signText negative).toList = if negative then ['-'] else [] := by
    cases negative <;> rfl
  rw [literal, textWith, if_pos below, String.toList_append, sign]

theorem Spells.doubleLiteral {x : Double} (finite : x.IsFinite) (delimits : Delimits tail)
    (spells : Spells tail ts) :
    Spells ((Kind.double.literal x).toList ++ tail) (Kind.double.tokens x ++ ts) := by
  cases x with
  | nan => exact finite.elim
  | signed negative magnitude =>
    rw [Kind.literal, Double.toList_literal finite]
    exact (spells.double magnitude delimits).signed negative

theorem Kind.spells_literal {k : Kind} {value : k.Carrier} (written : k.IsWritten value)
    (delimits : Delimits tail) (spells : Spells tail ts) :
    Spells ((k.literal value).toList ++ tail) (k.tokens value ++ ts) := by
  match k, value with
  | .whole .int, n => exact spells.intLiteral n delimits
  | .whole .long, n => exact spells.longLiteral n
  | .double, x => exact spells.doubleLiteral written delimits
  | .string, text => exact spells.string text
  | .instant, i => exact spells.instant written
  | .boolean, b =>
    have stop (c : Char) (next : tail.head? = some c) := delimits.not_isWordChar next
    cases b with
    | true => exact spells.word "true" (by decide) stop
    | false => exact spells.word "false" (by decide) stop

end Literals

namespace Expr

def IsWritten : {k : Kind} → Expr k → Prop
  | k, .const value => k.IsWritten value
  | _, .var name => IsName name
  | _, .arith _ left right => left.IsWritten ∧ right.IsWritten
  | _, .compare _ left right => left.IsWritten ∧ right.IsWritten
  | _, .logic _ left right => left.IsWritten ∧ right.IsWritten

def tokens : {k : Kind} → Expr k → List Token
  | k, .const value => k.tokens value
  | _, .var name => (Name.ofText name).tokens
  | _, .arith op left right =>
    .openParen :: (left.tokens ++ .arithmetic op :: right.tokens) ++ [.closeParen]
  | _, .compare op left right =>
    .openParen :: (left.tokens ++ .relation op :: right.tokens) ++ [.closeParen]
  | _, .logic op left right =>
    .openParen :: (left.tokens ++ .connective op :: right.tokens) ++ [.closeParen]

theorem toList_nodeText (left symbol right : String) (tail : List Char) :
    (nodeText left symbol right).toList ++ tail =
      '(' :: (left.toList ++ ' ' :: (symbol.toList ++ ' ' :: (right.toList ++ ')' :: tail))) := by
  simp [nodeText]

theorem spells_text {k : Kind} {e : Expr k} (written : e.IsWritten) {tail : List Char}
    {ts : List Token} (delimits : Delimits tail) (spells : Spells tail ts) :
    Spells (e.text.toList ++ tail) (e.tokens ++ ts) := by
  induction e generalizing tail ts with
  | const value => exact Kind.spells_literal written delimits spells
  | var name => exact IsName.spells written delimits spells
  | arith op left right ih ih' =>
    have second := ih' written.2 (delimits_closeParen tail) spells.closeParen
    have first := ih written.1 (delimits_blank _) (second.arithmetic op).blank
    rw [text, toList_nodeText]
    simpa [tokens] using first.openParen
  | compare op left right ih ih' =>
    have second := ih' written.2 (delimits_closeParen tail) spells.closeParen
    have first := ih written.1 (delimits_blank _) (second.relation op).blank
    rw [text, toList_nodeText]
    simpa [tokens] using first.openParen
  | logic op left right ih ih' =>
    have second := ih' written.2 (delimits_closeParen tail) spells.closeParen
    have first := ih written.1 (delimits_blank _) (second.connective op).blank
    rw [text, toList_nodeText]
    simpa [tokens] using first.openParen

end Expr

theorem Source.exists_tokens_text {k : Kind} {e : Expr k} (written : e.IsWritten) :
    ∃ located, Source.tokens e.text = .ok located ∧ located.map Located.token = e.tokens := by
  have spelled := Expr.spells_text written delimits_nil Spells.nil 0
  rw [List.append_nil, List.append_nil] at spelled
  exact spelled

end Formula
