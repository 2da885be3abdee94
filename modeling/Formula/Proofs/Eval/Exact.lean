import Formula.Proofs.Eval.Parts
import Formula.Proofs.Expr.Leaves

/-! Whole numbers of a width are calculated exactly, up to the first node that has no value within
the width. -/

namespace Formula

namespace Expr

variable {width : Width} {values : String → Whole width}

/-- The value of an integer expression without limits, given the values of its variables. Division
drops the fraction; what a division by zero gives is of no account. -/
def exact (values : String → Whole width) : Expr (.whole width) → Int
  | .const n => n.val
  | .var name => (values name).val
  | .arith .add left right => left.exact values + right.exact values
  | .arith .sub left right => left.exact values - right.exact values
  | .arith .mul left right => left.exact values * right.exact values
  | .arith .div left right => (left.exact values).tdiv (right.exact values)

theorem exact_arith (op : Arithmetic) (left right : Expr (.whole width)) :
    (arith op left right).exact values = op.exact (left.exact values) (right.exact values) := by
  cases op <;> rw [exact, Arithmetic.exact]

/-- All nodes from left to right, each behind its operands. -/
def nodes : Expr (.whole width) → List (Expr (.whole width))
  | .const n => [.const n]
  | .var name => [.var name]
  | .arith op left right => left.nodes ++ right.nodes ++ [.arith op left right]

/-- Without limits no node divides by zero, and the width holds the values of all nodes. -/
structure IsExact (values : String → Whole width) (e : Expr (.whole width)) : Prop where
  divisor : ∀ left right, .arith .div left right ∈ e.nodes → right.exact values ≠ 0
  range : ∀ node ∈ e.nodes, width.Holds (node.exact values)

inductive Fails (values : String → Whole width) : Expr (.whole width) → EvalError → Prop
  | divisionByZero {left right : Expr (.whole width)} :
      right.exact values = 0 →
        Fails values (.arith .div left right) (.divisionByZero (.whole width))
  | overflow {op : Arithmetic} {left right : Expr (.whole width)} :
      ¬ (op = .div ∧ right.exact values = 0) →
        ¬ width.Holds (exact values (.arith op left right)) →
        Fails values (.arith op left right) (.overflow op (.whole width))

/-- Of the nodes of a row the first one that fails does so with the error. -/
inductive FailsFirst (values : String → Whole width) : List (Expr (.whole width)) → EvalError → Prop
  | here {node : Expr (.whole width)} {rest : List (Expr (.whole width))} {error : EvalError} :
      node.Fails values error → FailsFirst values (node :: rest) error
  | later {node : Expr (.whole width)} {rest : List (Expr (.whole width))} {error : EvalError} :
      (∀ error', ¬ node.Fails values error') → FailsFirst values rest error →
        FailsFirst values (node :: rest) error

section Failures

variable {e node : Expr (.whole width)} {row rest : List (Expr (.whole width))}
  {error error' : EvalError}

theorem Fails.unique (fails : node.Fails values error) (fails' : node.Fails values error') :
    error = error' := by
  cases fails with
  | divisionByZero zero =>
    cases fails' with
    | divisionByZero => rfl
    | overflow defined => exact absurd ⟨rfl, zero⟩ defined
  | overflow defined =>
    cases fails' with
    | divisionByZero zero => exact absurd ⟨rfl, zero⟩ defined
    | overflow => rfl

theorem FailsFirst.unique (fails : FailsFirst values row error)
    (fails' : FailsFirst values row error') : error = error' := by
  induction fails with
  | here fails =>
    cases fails' with
    | here fails' => exact fails.unique fails'
    | later sound => exact absurd fails (sound _)
  | later sound _ ih =>
    cases fails' with
    | here fails' => exact absurd fails' (sound _)
    | later _ fails' => exact ih fails'

theorem not_failsFirst (sound : ∀ node ∈ row, ∀ error, ¬ node.Fails values error) :
    ¬ FailsFirst values row error := by
  intro first
  induction first with
  | here fails => exact sound _ List.mem_cons_self _ fails
  | later _ _ ih => exact ih fun node present => sound node (List.mem_cons_of_mem _ present)

theorem FailsFirst.append_right (fails : FailsFirst values row error)
    (rest : List (Expr (.whole width))) : FailsFirst values (row ++ rest) error := by
  induction fails with
  | here fails => exact .here fails
  | later sound _ ih => exact .later sound ih

theorem FailsFirst.append_left (sound : ∀ node ∈ row, ∀ error, ¬ node.Fails values error)
    (fails : FailsFirst values rest error) : FailsFirst values (row ++ rest) error := by
  induction row with
  | nil => exact fails
  | cons node row ih =>
    rw [List.forall_mem_cons] at sound
    exact .later sound.1 (ih sound.2)

theorem isExact_iff :
    e.IsExact values ↔ ∀ node ∈ e.nodes, ∀ error, ¬ node.Fails values error := by
  constructor
  · intro exact node present error fails
    cases fails with
    | divisionByZero zero => exact exact.divisor _ _ present zero
    | overflow _ beyond => exact beyond (exact.range _ present)
  · intro sound
    have divisor (left right : Expr (.whole width)) (present : .arith .div left right ∈ e.nodes) :
        right.exact values ≠ 0 :=
      fun zero => sound _ present _ (.divisionByZero zero)
    refine ⟨divisor, ?_⟩
    intro node present
    cases node with
    | const n => simpa only [exact] using n.fits
    | var name => simpa only [exact] using (values name).fits
    | arith op left right =>
      apply Decidable.byContradiction
      intro beyond
      have defined : ¬ (op = .div ∧ right.exact values = 0) := by
        rintro ⟨rfl, zero⟩
        exact divisor left right present zero
      exact sound _ present _ (.overflow defined beyond)

end Failures

theorem not_fails_const (n : Whole width) (error : EvalError) :
    ¬ Fails values (.const n) error :=
  nofun

theorem not_fails_var (name : String) (error : EvalError) : ¬ Fails values (.var name) error :=
  nofun

theorem apply_cases (op : Arithmetic) {left right : Expr (.whole width)} {a b : Whole width}
    (exactLeft : a.val = left.exact values) (exactRight : b.val = right.exact values) :
    (∃ v, Whole.apply op a b = .ok v ∧ v.val = (arith op left right).exact values ∧
        ∀ error, ¬ Fails values (.arith op left right) error) ∨
      ∃ error, Whole.apply op a b = .error error ∧ Fails values (.arith op left right) error := by
  by_cases zero : op = .div ∧ b.val = 0
  · obtain ⟨rfl, divisor⟩ := zero
    rw [exactRight] at divisor
    exact .inr ⟨_, Whole.apply_of_zero ⟨rfl, by rw [exactRight, divisor]⟩, .divisionByZero divisor⟩
  · have value : op.exact a.val b.val = (arith op left right).exact values := by
      rw [exact_arith, exactLeft, exactRight]
    by_cases holds : width.Holds (op.exact a.val b.val)
    · refine .inl ⟨⟨_, holds⟩, Whole.apply_of_val_eq zero rfl, value, ?_⟩
      intro error fails
      cases fails with
      | divisionByZero divisor => exact zero ⟨rfl, by rw [exactRight, divisor]⟩
      | overflow _ beyond => exact beyond (value ▸ holds)
    · refine .inr ⟨_, Whole.apply_of_not_holds zero holds, .overflow ?_ (value ▸ holds)⟩
      rwa [← exactRight]

/-- An evaluation gives the exact value and no node fails, or it gives the error of the first node
that fails. -/
theorem eval_cases (c : Context) (e : Expr (.whole width))
    (bound : ∀ name ∈ e.names, (c.resolve (.whole width) name).result = .ok (values name)) :
    (∃ v, e.eval c = .ok v ∧ v.val = e.exact values ∧
        ∀ node ∈ e.nodes, ∀ error, ¬ node.Fails values error) ∨
      ∃ error, e.eval c = .error error ∧ FailsFirst values e.nodes error := by
  match e with
  | .const n =>
    refine .inl ⟨n, rfl, by rw [exact], ?_⟩
    simpa only [nodes, List.forall_mem_singleton] using not_fails_const n
  | .var name =>
    refine .inl ⟨values name, bound name (by simp [names]), by rw [exact], ?_⟩
    simpa only [nodes, List.forall_mem_singleton] using not_fails_var name
  | .arith op left right =>
    simp only [names, List.forall_mem_append] at bound
    rw [eval_arith, nodes]
    obtain ⟨a, leftValue, exactLeft, leftSound⟩ | ⟨error, failed, first⟩ :=
      eval_cases c left bound.1
    · obtain ⟨b, rightValue, exactRight, rightSound⟩ | ⟨error, failed, first⟩ :=
        eval_cases c right bound.2
      · -- Only the node itself is left to fail.
        have sound : ∀ node ∈ left.nodes ++ right.nodes, ∀ error, ¬ node.Fails values error :=
          List.forall_mem_append.mpr ⟨leftSound, rightSound⟩
        have applied : ((left.eval c).bind fun a => (right.eval c).bind fun b =>
            Numeric.apply (.whole width) op a b) = Whole.apply op a b := by
          rw [leftValue, rightValue]
          rfl
        rw [applied]
        obtain ⟨v, value, exactValue, nodeSound⟩ | ⟨error, failed, fails⟩ :=
          apply_cases op exactLeft exactRight
        · refine .inl ⟨v, value, exactValue, List.forall_mem_append.mpr ⟨sound, ?_⟩⟩
          simpa only [List.forall_mem_singleton] using nodeSound
        · exact .inr ⟨error, failed, (FailsFirst.here fails).append_left sound⟩
      · refine .inr ⟨error, ?_, (first.append_left leftSound).append_right _⟩
        rw [leftValue, failed]
        rfl
    · -- The right operand is not evaluated, and its nodes come later.
      refine .inr ⟨error, ?_, (first.append_right right.nodes).append_right _⟩
      rw [failed]
      rfl

/-- An evaluation within a width succeeds exactly if no node leaves it or divides by zero, with the
value that the expression has without limits. Else its error is that of the first such node. -/
theorem eval_iff_exact {c : Context} {e : Expr (.whole width)}
    (bound : ∀ name ∈ e.names, (c.resolve (.whole width) name).result = .ok (values name)) :
    (∀ v, e.eval c = .ok v ↔ e.IsExact values ∧ v.val = e.exact values) ∧
      ∀ error, e.eval c = .error error ↔ FailsFirst values e.nodes error := by
  rw [isExact_iff]
  obtain ⟨v, value, exactValue, sound⟩ | ⟨error, failed, first⟩ := eval_cases c e bound
  · rw [value]
    constructor
    · intro v'
      rw [Except.ok.injEq, ← exactValue]
      constructor
      · rintro rfl
        exact ⟨sound, rfl⟩
      · intro same
        exact (Whole.eq_of_val_eq same.2).symm
    · intro error
      exact iff_of_false nofun (not_failsFirst sound)
  · rw [failed]
    constructor
    · intro v
      exact iff_of_false nofun fun exact => not_failsFirst exact.1 first
    · intro error'
      rw [Except.error.injEq]
      constructor
      · rintro rfl
        exact first
      · exact first.unique

def two : Whole .int := ⟨2, by decide⟩

def greatestInt : Whole .int := ⟨Width.int.greatest, by decide⟩

/-- The expression `(greatest + x - x) / (x - 2)`. -/
def detour : Expr (.whole .int) :=
  .arith .div (.arith .sub (.arith .add (.const greatestInt) (.var "x")) (.var "x"))
    (.arith .sub (.var "x") (.const two))

def bindsTwo : Context := .flat fun name => if name = "x" then some ⟨.int, two⟩ else none

theorem eval_detour_eq_overflow :
    (∀ name ∈ detour.names, (bindsTwo.resolve (.whole .int) name).result = .ok two) ∧
      detour.eval bindsTwo = .error (.overflow .add .int) := by
  have bound : ∀ name ∈ detour.names, (bindsTwo.resolve (.whole .int) name).result = .ok two := by
    simp only [detour, names, List.nil_append, List.append_nil, List.cons_append,
      List.forall_mem_cons]
    have found : (bindsTwo.resolve (.whole .int) "x").result = .ok two := rfl
    exact ⟨found, found, found, List.forall_mem_nil _⟩
  have fails : Fails (fun _ => two) (.arith .add (.const greatestInt) (.var "x"))
      (.overflow .add .int) := by
    refine .overflow (by decide) ?_
    rw [exact_arith, exact, exact]
    decide
  have first : FailsFirst (fun _ => two) detour.nodes (.overflow .add .int) := by
    simp only [detour, nodes, List.cons_append, List.nil_append]
    exact .later (not_fails_const _) (.later (not_fails_var _) (.here fails))
  exact ⟨bound, ((eval_iff_exact bound).2 _).mpr first⟩

end Expr

end Formula
