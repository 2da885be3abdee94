import Formula.Proofs.Eval.Parts

/-! Every error of an evaluation is that of a part of the expression: of a variable that the context
does not answer, or of a node with no value for those of its operands. -/

namespace Formula.Expr

/-- The expression has a part that the context makes fail with the error: a variable, or a node
whose operands have values. -/
inductive Justifies (c : Context) {k : Kind} (e : Expr k) : EvalError → Prop
  | variableNotFound {kind : Kind} {name missing : String} :
      ⟨kind, .var name⟩ ∈ e.parts →
        (c.resolve kind name).result = .error (.variableNotFound name missing) →
        Justifies c e (.variableNotFound name missing)
  | kindMismatch {kind : Kind} {name : String} {v : Value} :
      ⟨kind, .var name⟩ ∈ e.parts →
        (c.resolve kind name).result = .error (.kindMismatch name kind v.kind) →
        (c.find name [] (Name.ofText name).first (Name.ofText name).rest).result = .ok v →
        v.kind ≠ kind → Justifies c e (.kindMismatch name kind v.kind)
  | divisionByZero {width : Width} {left right : Expr (.whole width)} {a b : Whole width} :
      ⟨.whole width, .arith .div left right⟩ ∈ e.parts → left.eval c = .ok a →
        right.eval c = .ok b → b.val = 0 → Justifies c e (.divisionByZero (.whole width))
  | overflow {width : Width} {op : Arithmetic} {left right : Expr (.whole width)}
      {a b : Whole width} :
      ⟨.whole width, .arith op left right⟩ ∈ e.parts → left.eval c = .ok a →
        right.eval c = .ok b → ¬ width.Holds (op.exact a.val b.val) →
        Justifies c e (.overflow op (.whole width))

variable {c : Context} {k l : Kind} {error : EvalError}

theorem Justifies.mono {e : Expr k} {whole : Expr l} (justifies : e.Justifies c error)
    (within : e.parts ⊆ whole.parts) : whole.Justifies c error := by
  cases justifies with
  | variableNotFound present failed => exact .variableNotFound (within present) failed
  | kindMismatch present failed found other =>
    exact .kindMismatch (within present) failed found other
  | divisionByZero present left right zero => exact .divisionByZero (within present) left right zero
  | overflow present left right beyond => exact .overflow (within present) left right beyond

theorem justifies_var {name : String} (failed : (c.resolve k name).result = .error error) :
    (var name : Expr k).Justifies c error := by
  have present := self_mem_parts (var name : Expr k)
  obtain ⟨missing, rfl, -⟩ | ⟨v, rfl, other, found⟩ := Context.resolve_eq_error_iff.mp failed
  · exact .variableNotFound present failed
  · exact .kindMismatch present failed found other

theorem justifies_arith {n : Numeric} {op : Arithmetic} {left right : Expr (.number n)}
    {a b : n.Carrier} (leftValue : left.eval c = .ok a) (rightValue : right.eval c = .ok b)
    (failed : n.apply op a b = .error error) : (arith op left right).Justifies c error := by
  have present := self_mem_parts (arith op left right)
  cases n with
  | double => cases failed
  | whole width =>
    obtain ⟨⟨rfl, zero⟩, rfl⟩ | ⟨-, beyond, rfl⟩ := Whole.apply_eq_error_iff.mp failed
    · exact .divisionByZero present leftValue rightValue zero
    · exact .overflow present leftValue rightValue beyond

theorem justifies_of_eval_eq_error (e : Expr k) (failed : e.eval c = .error error) :
    e.Justifies c error := by
  induction e generalizing error with
  | const value => cases failed
  | var name => exact justifies_var failed
  | arith op left right ih ih' =>
    obtain failed | ⟨a, leftValue, failed | ⟨b, rightValue, failed⟩⟩ :=
      eval_arith_eq_error_iff.mp failed
    · exact (ih failed).mono (by simp [parts])
    · exact (ih' failed).mono (by simp [parts])
    · exact justifies_arith leftValue rightValue failed
  | compare op left right ih ih' =>
    obtain failed | ⟨a, -, failed⟩ := eval_compare_eq_error_iff.mp failed
    · exact (ih failed).mono (by simp [parts])
    · exact (ih' failed).mono (by simp [parts])
  | logic op left right ih ih' =>
    obtain failed | ⟨a, -, -, failed⟩ := eval_logic_eq_error_iff.mp failed
    · exact (ih failed).mono (by simp [parts])
    · exact (ih' failed).mono (by simp [parts])

/-- An error of an evaluation is justified by a part of the expression in that context. So an
expression whose variables all have values, and which calculates with no whole numbers, has a
value. -/
theorem eval_justified (c : Context) (e : Expr k) :
    (∀ error, e.eval c = .error error → e.Justifies c error) ∧
      (e.IsBound c →
        (∀ width op (left right : Expr (.whole width)),
          ⟨.whole width, .arith op left right⟩ ∉ e.parts) →
        ∃ v, e.eval c = .ok v) := by
  refine ⟨fun error => e.justifies_of_eval_eq_error, fun bound plain => ?_⟩
  cases value : e.eval c with
  | ok v => exact ⟨v, rfl⟩
  | error error =>
    cases e.justifies_of_eval_eq_error value with
    | variableNotFound present failed => exact absurd failed (bound.resolve_ne_error present _)
    | kindMismatch present failed => exact absurd failed (bound.resolve_ne_error present _)
    | divisionByZero present => exact absurd present (plain _ _ _ _)
    | overflow present => exact absurd present (plain _ _ _ _)

def noOffers : Whole .int := ⟨0, by decide⟩

def dozen : Whole .int := ⟨12, by decide⟩

/-- The expression `offers > 0 && urgent || total / offers >= 12`. -/
def share : Expr .boolean :=
  .logic .or
    (.logic .and (.compare (o := .number (.whole .int)) .gt (.var "offers") (.const noOffers))
      (.var "urgent"))
    (.compare (o := .number (.whole .int)) .ge
      (.arith (n := .whole .int) .div (.var "total") (.var "offers")) (.const dozen))

/-- The expression `rate / base < rate && valid`. -/
def falling : Expr .boolean :=
  .logic .and
    (.compare (o := .number .double) .lt
      (.arith (n := .double) .div (.var "rate") (.var "base")) (.var "rate"))
    (.var "valid")

def market : Context := .flat fun name =>
  if name = "offers" then some ⟨.int, noOffers⟩
  else if name = "total" then some ⟨.int, dozen⟩
  else if name = "rate" ∨ name = "base" then some ⟨.double, .nan⟩
  else if name = "valid" then some ⟨.boolean, true⟩
  else none

theorem eval_justified_share :
    share.eval market = .error (.divisionByZero .int) ∧
      share.Justifies market (.divisionByZero .int) ∧
      falling.IsBound market ∧
      (∀ width op (left right : Expr (.whole width)),
        ⟨.whole width, .arith op left right⟩ ∉ falling.parts) ∧
      ∃ v, falling.eval market = .ok v := by
  have failed : share.eval market = .error (.divisionByZero .int) := by rfl
  have bound : falling.IsBound market := by
    intro kind name present
    simp only [falling, parts, List.cons_append, List.nil_append, List.mem_cons, List.not_mem_nil,
      or_false] at present
    obtain h | h | h | h | h | h | h := present
    all_goals cases h
    all_goals exact ⟨_, rfl⟩
  have plain : ∀ width op (left right : Expr (.whole width)),
      ⟨.whole width, .arith op left right⟩ ∉ falling.parts := by
    intro width op left right present
    simp only [falling, parts, List.cons_append, List.nil_append, List.mem_cons, List.not_mem_nil,
      or_false] at present
    obtain h | h | h | h | h | h | h := present
    all_goals cases h
  exact ⟨failed, (eval_justified market share).1 _ failed, bound, plain,
    (eval_justified market falling).2 bound plain⟩

end Formula.Expr
