import Formula.Proofs.Eval.Parts

/-! Values written in place of the variables that have them: the evaluation ends as before, and no
longer asks for what has been written. -/

namespace Formula.Expr

/-- The expression with every variable that the context has a value of its kind for replaced by
that value. -/
def filled (c : Context) : {k : Kind} → Expr k → Expr k
  | _, .const value => .const value
  | k, .var name =>
    match (c.resolve k name).result with
    | .ok value => .const value
    | .error _ => .var name
  | _, .arith op left right => .arith op (left.filled c) (right.filled c)
  | _, .compare op left right => .compare op (left.filled c) (right.filled c)
  | _, .logic op left right => .logic op (left.filled c) (right.filled c)

variable {c : Context} {k : Kind} {name : String}

theorem filled_var_of_ok {value : k.Carrier} (found : (c.resolve k name).result = .ok value) :
    (var name : Expr k).filled c = .const value := by
  rw [filled, found]

theorem filled_var_of_error {error : EvalError}
    (failed : (c.resolve k name).result = .error error) :
    (var name : Expr k).filled c = .var name := by
  rw [filled, failed]

theorem eval_filled_of_forall_var (c c' : Context) (e : Expr k)
    (same : ∀ kind name, ⟨kind, .var name⟩ ∈ e.parts →
      ((var name : Expr kind).filled c).eval c' = (c.resolve kind name).result) :
    (e.filled c).eval c' = e.eval c := by
  induction e with
  | const value => rfl
  | var name => exact same _ name (self_mem_parts _)
  | arith op left right ih ih' =>
    have first := ih fun kind name present => same kind name (by simp [parts, present])
    have second := ih' fun kind name present => same kind name (by simp [parts, present])
    rw [filled, eval_arith, eval_arith, first, second]
  | compare op left right ih ih' =>
    have first := ih fun kind name present => same kind name (by simp [parts, present])
    have second := ih' fun kind name present => same kind name (by simp [parts, present])
    rw [filled, eval_compare, eval_compare, first, second]
  | logic op left right ih ih' =>
    have first := ih fun kind name present => same kind name (by simp [parts, present])
    have second := ih' fun kind name present => same kind name (by simp [parts, present])
    rw [filled, eval_logic, eval_logic, first, second]

theorem eval_filled_var (c : Context) (name : String) :
    ((var name : Expr k).filled c).eval c = (c.resolve k name).result := by
  cases found : (c.resolve k name).result with
  | ok value =>
    rw [filled_var_of_ok found]
    rfl
  | error error =>
    rw [filled_var_of_error found]
    exact found

/-- With the values of its variables written in their place, an expression has the same value or
error as before. If all of them have values, it has it in every context, also in one that binds
nothing. -/
theorem eval_filled (c : Context) (e : Expr k) :
    (e.filled c).eval c = e.eval c ∧
      (e.IsBound c → ∀ c', (e.filled c).eval c' = e.eval c) := by
  refine ⟨eval_filled_of_forall_var c c e fun kind name _ => eval_filled_var c name, ?_⟩
  intro bound c'
  refine eval_filled_of_forall_var c c' e fun kind name present => ?_
  obtain ⟨value, found⟩ := bound kind name present
  rw [filled_var_of_ok found, found]
  rfl

def twenty : Whole .int := ⟨20, by decide⟩

def forty : Whole .int := ⟨40, by decide⟩

def exceedsTwenty : Expr .boolean :=
  .compare (o := .number (.whole .int)) .gt (.var "size") (.const twenty)

/-- The expression `size > 20 || size == "large"`. -/
def spacious : Expr .boolean :=
  .logic .or exceedsTwenty (.compare (o := .string) .eq (.var "size") (.const "large"))

def bindsForty : Context := .flat fun name => if name = "size" then some ⟨.int, forty⟩ else none

theorem eval_filled_spacious :
    spacious.filled bindsForty =
        .logic .or (.compare (o := .number (.whole .int)) .gt (.const forty) (.const twenty))
          (.compare (o := .string) .eq (.var "size") (.const "large")) ∧
      (spacious.filled bindsForty).eval bindsForty = .ok true ∧
      exceedsTwenty.IsBound bindsForty ∧
      (exceedsTwenty.filled bindsForty).eval .empty = .ok true := by
  have bound : exceedsTwenty.IsBound bindsForty := by
    intro kind name present
    simp only [exceedsTwenty, parts, List.cons_append, List.nil_append, List.mem_cons,
      List.not_mem_nil, or_false] at present
    obtain h | h | h := present
    all_goals cases h
    exact ⟨_, rfl⟩
  exact ⟨rfl, (eval_filled bindsForty spacious).1, bound,
    (eval_filled bindsForty exceedsTwenty).2 bound .empty⟩

end Formula.Expr
