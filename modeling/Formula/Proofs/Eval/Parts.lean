import Formula.Proofs.Eval.Find

/-! The parts of an expression, and what each makes of the values and errors of its operands. -/

namespace Formula

namespace Whole

variable {width : Width} {op : Arithmetic} {a b v : Whole width} {error : EvalError}

theorem eq_of_val_eq (same : a.val = b.val) : a = b := by
  cases a
  cases b
  cases same
  rfl

theorem apply_of_zero (zero : op = .div ∧ b.val = 0) :
    apply op a b = .error (.divisionByZero (.whole width)) :=
  if_pos zero

theorem apply_of_val_eq (defined : ¬ (op = .div ∧ b.val = 0))
    (exact : v.val = op.exact a.val b.val) : apply op a b = .ok v := by
  rw [apply, if_neg defined, ofInt?_eq_some_iff.mpr exact]

theorem apply_of_not_holds (defined : ¬ (op = .div ∧ b.val = 0))
    (beyond : ¬ width.Holds (op.exact a.val b.val)) :
    apply op a b = .error (.overflow op (.whole width)) := by
  rw [apply, if_neg defined, ofInt?_eq_none_iff.mpr beyond]

theorem apply_eq_error_iff :
    apply op a b = .error error ↔
      (op = .div ∧ b.val = 0) ∧ error = .divisionByZero (.whole width) ∨
        ¬ (op = .div ∧ b.val = 0) ∧ ¬ width.Holds (op.exact a.val b.val) ∧
          error = .overflow op (.whole width) := by
  by_cases zero : op = .div ∧ b.val = 0
  · rw [apply_of_zero zero]
    simp [zero, eq_comm]
  · by_cases holds : width.Holds (op.exact a.val b.val)
    · rw [apply_of_val_eq (v := ⟨_, holds⟩) zero rfl]
      simp [zero, holds]
    · rw [apply_of_not_holds zero holds]
      simp [zero, holds, eq_comm]

end Whole

namespace Expr

def parts : {k : Kind} → Expr k → List (Σ l, Expr l)
  | k, .const value => [⟨k, .const value⟩]
  | k, .var name => [⟨k, .var name⟩]
  | _, .arith op left right => left.parts ++ right.parts ++ [⟨_, .arith op left right⟩]
  | _, .compare op left right => left.parts ++ right.parts ++ [⟨_, .compare op left right⟩]
  | _, .logic op left right => left.parts ++ right.parts ++ [⟨_, .logic op left right⟩]

theorem self_mem_parts {k : Kind} (e : Expr k) : ⟨k, e⟩ ∈ e.parts := by
  cases e <;> simp [parts]

def IsBound (c : Context) {k : Kind} (e : Expr k) : Prop :=
  ∀ kind name, ⟨kind, .var name⟩ ∈ e.parts → ∃ v, (c.resolve kind name).result = .ok v

theorem IsBound.resolve_ne_error {c : Context} {k kind : Kind} {e : Expr k} {name : String}
    (bound : e.IsBound c) (present : ⟨kind, .var name⟩ ∈ e.parts) (error : EvalError) :
    (c.resolve kind name).result ≠ .error error := by
  obtain ⟨v, found⟩ := bound kind name present
  rw [found]
  exact nofun

section Node

variable (c : Context) {n : Numeric} {o : Ordered} {error : EvalError}

theorem eval_arith (op : Arithmetic) (left right : Expr (.number n)) :
    (arith op left right).eval c =
      (left.eval c).bind fun a => (right.eval c).bind fun b => n.apply op a b := by
  simp only [eval, run, Outcome.result_bind, Outcome.ofResult]

theorem eval_compare (op : Relation) (left right : Expr (.ordered o)) :
    (compare op left right).eval c =
      (left.eval c).bind fun a => (right.eval c).bind fun b => .ok (op.holds (o.compare a b)) := by
  simp only [eval, run, Outcome.result_bind]
  rfl

theorem eval_logic (op : Connective) (left right : Expr .boolean) :
    (logic op left right).eval c =
      (left.eval c).bind fun a => if a = op.decisive then .ok a else right.eval c := by
  simp only [eval, run, Outcome.result_bind]
  congr 1
  funext a
  split <;> rfl

variable {c}

theorem eval_arith_eq_error_iff {op : Arithmetic} {left right : Expr (.number n)} :
    (arith op left right).eval c = .error error ↔
      left.eval c = .error error ∨
        ∃ a, left.eval c = .ok a ∧
          (right.eval c = .error error ∨
            ∃ b, right.eval c = .ok b ∧ n.apply op a b = .error error) := by
  simp only [eval, run, Outcome.result_bind_eq_error_iff, Outcome.ofResult]

theorem eval_compare_eq_error_iff {op : Relation} {left right : Expr (.ordered o)} :
    (compare op left right).eval c = .error error ↔
      left.eval c = .error error ∨
        ∃ a, left.eval c = .ok a ∧ right.eval c = .error error := by
  have compared (b : Bool) : (pure b : Outcome Bool).result ≠ .error error := nofun
  simp only [eval, run, Outcome.result_bind_eq_error_iff, compared, and_false, exists_false,
    or_false]

theorem eval_logic_eq_error_iff {op : Connective} {left right : Expr .boolean} :
    (logic op left right).eval c = .error error ↔
      left.eval c = .error error ∨
        ∃ a, left.eval c = .ok a ∧ a ≠ op.decisive ∧ right.eval c = .error error := by
  simp only [eval, run, Outcome.result_bind_eq_error_iff]
  refine or_congr_right (exists_congr fun a => and_congr_right fun _ => ?_)
  split
  · rename_i decides
    exact iff_of_false nofun fun failed => failed.1 decides
  · rename_i undecided
    exact (and_iff_right undecided).symm

end Node

end Expr

end Formula
