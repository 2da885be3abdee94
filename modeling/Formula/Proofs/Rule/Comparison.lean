import Formula.Proofs.Rule.Number
import Formula.Rule.Condition

/-! The rules of comparisons take two operands of one kind with a relation between them. -/

namespace Formula

def Ordered.level : Ordered → Level
  | .string | .instant => .factor
  | .number _ => .sum

def ReadsComparison (o : Ordered) (ts rest : List Token) (e : Expr .boolean) : Prop :=
  ∃ ls op rs l r, ts = ls ++ .relation op :: rs ∧ ReadsOperand o ls l ∧ ReadsOperand o rs r ∧
    o.level.Ends rs rest ∧ e = .compare op l r

namespace Rule

theorem stringOperand_cons (t : Located) (rest : List Located) (stop : Nat) :
    stringOperand ⟨t :: rest, stop⟩ =
      match t.token with
      | .string text => .ok (.const text) ⟨rest, stop⟩
      | .identifier _ => name ⟨t :: rest, stop⟩
      | _ => refuse "a string literal or a variable" ⟨t :: rest, stop⟩ := by
  simp only [stringOperand, bind_run, peek_run, List.head?_cons, Option.map_some]
  cases t.token <;> rfl

theorem instantOperand_cons (t : Located) (rest : List Located) (stop : Nat) :
    instantOperand ⟨t :: rest, stop⟩ =
      match t.token with
      | .instant i => .ok (.const i) ⟨rest, stop⟩
      | .identifier _ => name ⟨t :: rest, stop⟩
      | _ => refuse "a date-time literal or a variable" ⟨t :: rest, stop⟩ := by
  simp only [instantOperand, bind_run, peek_run, List.head?_cons, Option.map_some]
  cases t.token <;> rfl

theorem fails_refuse {α : Type} (expected : String) (c : Cursor) :
    Fails (refuse (α := α) expected) c := by
  rcases c with ⟨tokens, stop⟩
  cases tokens <;> exact fun _ _ found => by cases found

theorem takes_stringOperand :
    Takes stringOperand fun ts rest e =>
      ReadsOperand .string ts e ∧ Level.factor.Ends ts rest := by
  intro c e after found
  rcases c with ⟨tokens, stop⟩
  cases tokens with
  | nil => cases found
  | cons t rest =>
    rw [stringOperand_cons] at found
    split at found
    · rename_i text literal
      cases found
      refine ⟨[t], rfl, by rw [List.map_singleton, literal]; exact .string text, ?_⟩
      exact Level.ends_of_getLast?_ne (.string text) (by simp [literal]) (by simp)
        fun _ _ => rfl
    · rcases takes_name _ _ _ found with ⟨taken, start, text, reads, ends, rfl⟩
      exact ⟨taken, start, .stringName reads, fun dot => absurd dot ends, fun _ _ => rfl⟩
    · exact absurd found (fails_refuse _ _ _ _)

theorem takes_instantOperand :
    Takes instantOperand fun ts rest e =>
      ReadsOperand .instant ts e ∧ Level.factor.Ends ts rest := by
  intro c e after found
  rcases c with ⟨tokens, stop⟩
  cases tokens with
  | nil => cases found
  | cons t rest =>
    rw [instantOperand_cons] at found
    split at found
    · rename_i i literal
      cases found
      refine ⟨[t], rfl, by rw [List.map_singleton, literal]; exact .instant i, ?_⟩
      exact Level.ends_of_getLast?_ne (.instant i) (by simp [literal]) (by simp)
        fun _ _ => rfl
    · rcases takes_name _ _ _ found with ⟨taken, start, text, reads, ends, rfl⟩
      exact ⟨taken, start, .instantName reads, fun dot => absurd dot ends, fun _ _ => rfl⟩
    · exact absurd found (fails_refuse _ _ _ _)

theorem takes_operandWithin (depth : Nat) (o : Ordered) :
    Takes (operandWithin depth o) fun ts rest e =>
      ReadsOperand o ts e ∧ o.level.Ends ts rest := by
  cases o with
  | string => exact takes_stringOperand
  | instant => exact takes_instantOperand
  | number n =>
    exact (takes_sumWithin depth).mono fun _ _ _ sorted => ⟨.number sorted.1, sorted.2⟩

theorem takes_comparisonWithin (depth : Nat) (o : Ordered) :
    Takes (comparisonWithin depth o) (ReadsComparison o) := by
  intro c e after found
  simp only [comparisonWithin, bind_eq_ok_iff] at found
  rcases found with ⟨l, _, leftFound, op, _, opFound, r, _, rightFound, made⟩
  rcases takes_operandWithin depth o _ _ _ leftFound with ⟨left, rfl, reads, -⟩
  rcases take_eq_ok_iff.mp opFound with ⟨t, start, relation⟩
  rcases takes_operandWithin depth o _ _ _ rightFound with ⟨right, between, reads', ends⟩
  cases made
  rcases t with ⟨token, offset⟩
  cases token <;> cases relation
  refine ⟨left ++ ⟨.relation op, offset⟩ :: right, ?_, _, op, _, l, r, ?_, reads, reads', ends, rfl⟩
  · simp_all
  · simp

end Rule

end Formula
