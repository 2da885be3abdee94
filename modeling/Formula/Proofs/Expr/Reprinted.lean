import Formula.Proofs.Source.Embedding

/-! What was read and is printed is accepted again up to the height at which its parentheses nest too
deep, and a source without parentheses may be as high as it is long. -/

namespace Formula

namespace Goal.Reads

variable {goal : Goal} {row : List Token} {e : Expr goal.kind}

theorem leavesIn (reads : goal.Reads row e) : LeavesIn row e := by
  cases goal with
  | boolean => exact ReadsCondition.leavesIn reads
  | number n => exact ReadsNumber.leavesIn reads

theorem isShown_settled (reads : goal.Reads row e) : e.settled.IsShown := by
  cases goal with
  | boolean => exact Expr.isShown_settled reads
  | number n => cases e <;> trivial

end Goal.Reads

namespace Expr

section Reprinted

variable {goal : Goal} {source : String} {limit limit' : Nat} {e : Expr goal.kind}

theorem wellFormed_settled (read : ofSource goal limit source = .ok e) (finite : e.IsFinite) :
    e.settled.WellFormed := by
  obtain ⟨located, found, parsed⟩ := Source.parse_eq_ok_iff.mp read
  have reads := (Source.parseTokens_rule_eq_ok_iff.mp parsed).2
  have written := isWritten_of_leavesIn reads.leavesIn (Source.isWritten_of_tokens found) finite
  exact ⟨isWritten_settled written, reads.isShown_settled⟩

theorem ofSource_text_eq_settled (read : ofSource goal limit source = .ok e) (finite : e.IsFinite)
    (shallow : e.height ≤ limit') : ofSource goal limit' e.text = .ok e.settled := by
  have wellFormed := wellFormed_settled read finite
  rw [← text_settled e]
  exact ofSource_text goal wellFormed.written wellFormed.shown (by rwa [height_settled])

theorem exists_ofSource_text_eq_tooDeep (read : ofSource goal limit source = .ok e)
    (finite : e.IsFinite) (deep : limit' < e.height) :
    ∃ offset, ofSource goal limit' e.text = .error (.nestingTooDeep limit' offset) := by
  rw [← text_settled e]
  exact exists_ofSource_text_eq_error (wellFormed_settled read finite).written
    (by rwa [height_settled])

/-- What is read within the default limit and printed is accepted within it again exactly if the tree
is no higher than parentheses may nest, and else is refused for that reason. -/
theorem exists_ofSource_text_iff_height_le (read : ofSource goal Source.defaultLimit source = .ok e)
    (finite : e.IsFinite) :
    ((∃ e', ofSource goal Source.defaultLimit e.text = .ok e') ↔
        e.height ≤ Source.defaultLimit) ∧
      (Source.defaultLimit < e.height → ∃ offset, ofSource goal Source.defaultLimit e.text =
        .error (.nestingTooDeep Source.defaultLimit offset)) := by
  refine ⟨⟨fun accepted => ?_, fun shallow => ⟨_, ofSource_text_eq_settled read finite shallow⟩⟩,
    exists_ofSource_text_eq_tooDeep read finite⟩
  obtain ⟨e', accepted⟩ := accepted
  apply Nat.le_of_not_lt
  intro deep
  obtain ⟨offset, failed⟩ := exists_ofSource_text_eq_tooDeep read finite deep
  rw [accepted] at failed
  cases failed

end Reprinted

section Tally

variable (n : Numeric) (more limit : Nat)

/-- A sum of one name only, with so many plus signs. It groups from the left. -/
def tally : Nat → Expr (.number n)
  | 0 => .var "x"
  | more + 1 => .arith .add (tally more) (.var "x")

def tallySource : Nat → String
  | 0 => "x"
  | more + 1 => tallySource more ++ " + x"

theorem height_tally : (tally n more).height = more := by
  induction more with
  | zero => rfl
  | succ more ih => rw [tally, height, ih, height, Nat.max_eq_left (Nat.zero_le more)]

theorem isFinite_tally : (tally n more).IsFinite := by
  induction more with
  | zero => trivial
  | succ more ih => exact ⟨ih, trivial⟩

theorem ofSource_x : ofSource (.number n) limit "x" = .ok (.var "x") := by
  have found : Source.tokens "x" = .ok [⟨.identifier "x", 0⟩] := rfl
  refine Source.parse_eq_ok_iff.mpr ⟨_, found, Source.parseTokens_rule_eq_ok_iff.mpr ?_⟩
  exact ⟨Nat.zero_le limit, .product (.factor (.name (.identifier "x")))⟩

theorem ofSource_tally : ofSource (.number n) limit (tallySource more) = .ok (tally n more) := by
  induction more with
  | zero => exact ofSource_x n limit
  | succ more ih =>
    obtain ⟨ls, left, reads⟩ := exists_embeds_of_ofSource ih
    obtain ⟨rs, right, reads'⟩ := exists_embeds_of_ofSource (ofSource_x n limit)
    have name : ReadsNumber n .product rs (.var "x") := by
      cases reads' with
      | product reads' => exact reads'
    have embeds := left.separated right (fun _ => rfl) Arithmetic.add.symbol.toList
      (Spells.arithmetic .add)
    refine ofSource_of_embeds embeds (.shifted rfl reads name) ?_
    simp [tallySource, Arithmetic.symbol]

example : tallySource 2 = "x + x + x" ∧ (tally .double 2).text = "((x + x) + x)" := by decide

theorem exists_ofSource_text_tally :
    ofSource (.number .double) Source.defaultLimit (tallySource 64) = .ok (tally .double 64) ∧
      (tally .double 64).IsFinite ∧
      (∃ e, ofSource (.number .double) Source.defaultLimit (tally .double 64).text = .ok e) ∧
      ofSource (.number .double) Source.defaultLimit (tallySource 65) = .ok (tally .double 65) ∧
      (tally .double 65).IsFinite ∧
      ∃ offset, ofSource (.number .double) Source.defaultLimit (tally .double 65).text =
        .error (.nestingTooDeep Source.defaultLimit offset) := by
  have read := ofSource_tally .double 64 Source.defaultLimit
  have read' := ofSource_tally .double 65 Source.defaultLimit
  have finite := isFinite_tally .double 64
  have finite' := isFinite_tally .double 65
  have shallow : (tally .double 64).height ≤ Source.defaultLimit :=
    Nat.le_of_eq (height_tally .double 64)
  have deep : Source.defaultLimit < (tally .double 65).height := by
    rw [height_tally]
    decide
  exact ⟨read, finite, (exists_ofSource_text_iff_height_le read finite).1.mpr shallow, read',
    finite', (exists_ofSource_text_iff_height_le read' finite').2 deep⟩

/-- With one plus sign more than parentheses may nest the sum is accepted, and what it is printed as
is not. -/
theorem ofSource_text_tally_ne_ok :
    ofSource (.number (.whole .int)) Source.defaultLimit (tallySource 65) =
        .ok (tally (.whole .int) 65) ∧
      (tally (.whole .int) 65).IsFinite ∧
      ∀ e, ofSource (.number (.whole .int)) Source.defaultLimit (tally (.whole .int) 65).text ≠
        .ok e := by
  have read := ofSource_tally (.whole .int) 65 Source.defaultLimit
  have finite := isFinite_tally (.whole .int) 65
  have deep : Source.defaultLimit < (tally (.whole .int) 65).height := by
    rw [height_tally]
    decide
  refine ⟨read, finite, fun e accepted => ?_⟩
  obtain ⟨offset, failed⟩ := exists_ofSource_text_eq_tooDeep read finite deep
  rw [accepted] at failed
  cases failed

end Tally

end Expr

end Formula
