import Formula.Proofs.Rule.Depth

/-! The nesting check bounds the recursion of the rules: where it passes, a rule that may hold no
more parentheses open at once than the check allows does the same as the rule without a bound, which
is the one that `sum_eq_sumOver` and `condition_eq_conditionOver` describe. -/

namespace Formula

/-- The rule of a kind of expression, in which parentheses nest at most so deep. At one that nests
deeper it fails with an error of its own. -/
def Goal.ruleWithin : (goal : Goal) → Nat → Rule (Expr goal.kind)
  | .boolean => Rule.conditionWithin
  | .number n => Rule.sumWithin n

namespace Source

variable {limit opened after : Nat} {t : Located} {taken rest : List Located}

theorem checkNesting_cons_of_nest (nests : t.token.nest opened = some after)
    (checked : checkNesting limit opened (t :: rest) = .ok ()) :
    checkNesting limit after rest = .ok () := by
  rcases t with ⟨token, offset⟩
  cases token with
  | openParen =>
    cases nests
    simp only [checkNesting] at checked
    split at checked
    · cases checked
    · exact checked
  | closeParen =>
    simp only [Token.nest] at nests
    split at nests
    · cases nests
    · cases nests
      exact checked
  | _ =>
    cases nests
    exact checked

theorem lt_of_checkNesting_openParen (opens : t.token = .openParen)
    (checked : checkNesting limit opened (t :: rest) = .ok ()) : opened < limit := by
  apply Nat.lt_of_not_le
  intro full
  simp only [checkNesting, opens, if_pos full] at checked
  cases checked

theorem checkNesting_append (nests : (taken.map Located.token).foldlM Token.nest opened = some after)
    (checked : checkNesting limit opened (taken ++ rest) = .ok ()) :
    checkNesting limit after rest = .ok () := by
  induction taken generalizing opened with
  | nil =>
    cases nests
    exact checked
  | cons t taken ih =>
    rw [List.map_cons, List.foldlM_cons] at nests
    obtain ⟨between, first, nests⟩ := Option.bind_eq_some_iff.mp nests
    exact ih nests (checkNesting_cons_of_nest first checked)

/-- The check, made from here on with some number of parentheses open, allows for so many more. The
rules hold no more of them open than are counted. -/
def HasRoom (depth : Nat) (c : Cursor) : Prop :=
  ∃ opened, checkNesting (opened + depth) opened c.tokens = .ok ()

theorem HasRoom.behind {depth stop : Nat} (balanced : Balanced (taken.map Located.token))
    (room : HasRoom depth ⟨taken ++ rest, stop⟩) : HasRoom depth ⟨rest, stop⟩ := by
  obtain ⟨opened, checked⟩ := room
  exact ⟨opened, checkNesting_append (balanced opened) checked⟩

theorem nests_hasRoom (depth : Nat) : Rule.Nests (HasRoom (depth + 1)) (HasRoom depth) where
  behind := HasRoom.behind
  inside := by
    intro t rest stop opens room
    obtain ⟨opened, checked⟩ := room
    have nests : t.token.nest opened = some (opened + 1) := by rw [opens]; rfl
    have counted := checkNesting_cons_of_nest nests checked
    rw [← Nat.add_assoc, Nat.add_right_comm] at counted
    exact ⟨opened + 1, counted⟩

theorem nests_hasRoom_zero : Rule.Nests (HasRoom 0) fun _ => False where
  behind := HasRoom.behind
  inside := by
    intro t rest stop opens room
    obtain ⟨opened, checked⟩ := room
    exact Nat.lt_irrefl opened (lt_of_checkNesting_openParen opens checked)

end Source

namespace Rule

open Source

variable {n : Numeric}

theorem agreeOn_sumWithin (depth : Nat) : AgreeOn (HasRoom depth) (sumWithin n depth) (sum n) := by
  rw [sum_eq_sumOver]
  induction depth with
  | zero => exact agreeOn_sumOver nests_hasRoom_zero takes_exhausted fun _ stuck => stuck.elim
  | succ depth ih =>
    rw [← sum_eq_sumOver] at ih
    exact agreeOn_sumOver (nests_hasRoom depth) (takes_sumWithin_sum depth) ih

theorem agreeOn_operandWithin (depth : Nat) (o : Ordered) :
    AgreeOn (HasRoom depth) (operandWithin depth o) (operand o) := by
  cases o with
  | string | instant => exact agreeOn_refl _ _
  | number n => exact agreeOn_sumWithin depth

theorem agreeOn_relationWithin {within : Cursor → Prop} {depth : Nat}
    (nests : Nests (HasRoom depth) within) :
    AgreeOn (HasRoom depth) (relationWithin depth) relation := by
  rw [relation_eq_relationOver]
  exact agreeOn_relationOver nests (takesBalanced_operandWithin depth) (agreeOn_operandWithin depth)

theorem agreeOn_conditionWithin (depth : Nat) :
    AgreeOn (HasRoom depth) (conditionWithin depth) condition := by
  rw [condition_eq_conditionOver]
  induction depth with
  | zero =>
    exact agreeOn_conditionOver nests_hasRoom_zero (takesBalanced_relationWithin 0) takes_exhausted
      (agreeOn_relationWithin nests_hasRoom_zero) fun _ stuck => stuck.elim
  | succ depth ih =>
    rw [← condition_eq_conditionOver] at ih
    exact agreeOn_conditionOver (nests_hasRoom depth) (takesBalanced_relationWithin (depth + 1))
      (takesBalanced_conditionWithin depth) (agreeOn_relationWithin (nests_hasRoom depth)) ih

end Rule

/-- Where the check passes, the rules need to hold no more parentheses open than it allows. -/
theorem Goal.ruleWithin_eq_rule (goal : Goal) {limit : Nat} {c : Cursor}
    (checked : Source.checkNesting limit 0 c.tokens = .ok ()) :
    goal.ruleWithin limit c = goal.rule c := by
  have room : Source.HasRoom limit c := ⟨0, by rwa [Nat.zero_add]⟩
  cases goal with
  | boolean => exact Rule.agreeOn_conditionWithin limit c room
  | number n => exact Rule.agreeOn_sumWithin limit c room

def Source.lopsided : Cursor where
  tokens :=
    [⟨.openParen, 0⟩, ⟨.openParen, 1⟩, ⟨.identifier "a", 2⟩, ⟨.closeParen, 3⟩, ⟨.relation .lt, 5⟩,
      ⟨.identifier "b", 7⟩, ⟨.connective .and, 9⟩, ⟨.openParen, 12⟩, ⟨.identifier "c", 13⟩,
      ⟨.relation .eq, 15⟩, ⟨.int 1, 18⟩]
  stop := 19

theorem Goal.ruleWithin_lopsided :
    Source.checkNesting 2 0 Source.lopsided.tokens = .ok () ∧
      ∀ goal : Goal, goal.ruleWithin 2 Source.lopsided = goal.rule Source.lopsided := by
  have checked : Source.checkNesting 2 0 Source.lopsided.tokens = .ok () := by decide
  exact ⟨checked, fun goal => goal.ruleWithin_eq_rule checked⟩

example : (Goal.number .double).ruleWithin 0 Source.lopsided =
    .error (.nestingTooDeep 0 1) ⟨Source.lopsided.tokens.drop 1, 19⟩ := by
  rfl

end Formula
