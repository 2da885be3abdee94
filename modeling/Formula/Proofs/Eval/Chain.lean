import Formula.Proofs.Eval.Find
import Formula.Proofs.Rule.Condition

/-! Chains of connectives. They are read as trees that lean to the left, and these are evaluated as
a loop over the operands that leaves out what no longer matters. -/

namespace Formula

namespace Outcome

theorem id_map {α : Type} (first : Outcome α) : id <$> first = first := by
  obtain ⟨lookups, result⟩ := first
  cases result with
  | error error => rfl
  | ok a => exact congrArg (Outcome.mk · _) (List.append_nil lookups)

instance : LawfulMonad Outcome := .mk' Outcome id_map (fun _ _ => rfl) bind_bind

end Outcome

namespace Expr

def chained (first : Expr .boolean) (rest : List (Connective × Expr .boolean)) : Expr .boolean :=
  rest.foldl (fun left (op, right) => .logic op left right) first

/-- The value of a chain from left to right. An operand is evaluated unless the value so far decides
the connective before it. -/
def loop (c : Context) (first : Expr .boolean) (rest : List (Connective × Expr .boolean)) :
    Outcome Bool := do
  let mut value ← first.run c
  for (op, operand) in rest do
    unless value = op.decisive do
      value ← operand.run c
  return value

theorem loop_nil (c : Context) (first : Expr .boolean) : loop c first [] = first.run c := by
  simp only [loop, List.forIn_nil, bind_pure]

theorem loop_cons (c : Context) (first : Expr .boolean) (op : Connective) (operand : Expr .boolean)
    (rest : List (Connective × Expr .boolean)) :
    loop c first ((op, operand) :: rest) = loop c (.logic op first operand) rest := by
  simp only [loop, List.forIn_cons, run, bind_assoc]
  congr 1
  funext value
  -- Both sides go on over the rest from the same value, whether or not it decides.
  split
  · simp only [pure_bind]
  · simp only [bind_assoc, pure_bind]

theorem run_chained (c : Context) (first : Expr .boolean)
    (rest : List (Connective × Expr .boolean)) :
    (chained first rest).run c = loop c first rest := by
  induction rest generalizing first with
  | nil => exact (loop_nil c first).symm
  | cons link rest ih =>
    calc
      (chained first (link :: rest)).run c =
          (chained (.logic link.1 first link.2) rest).run c := rfl
      _ = loop c (.logic link.1 first link.2) rest := ih _
      _ = loop c first (link :: rest) := (loop_cons c first link.1 link.2 rest).symm

theorem chained_concat (first : Expr .boolean) (rest : List (Connective × Expr .boolean))
    (op : Connective) (operand : Expr .boolean) :
    chained first (rest ++ [(op, operand)]) = .logic op (chained first rest) operand := by
  simp only [chained, List.foldl_append, List.foldl_cons, List.foldl_nil]

section Logic

variable {c : Context} {op : Connective} {left : Expr .boolean} {asked : List Lookup} {value : Bool}

theorem run_logic_of_decisive (decided : left.run c = ⟨asked, .ok op.decisive⟩)
    (right : Expr .boolean) : (logic op left right).run c = ⟨asked, .ok op.decisive⟩ := by
  rw [run, decided, Outcome.bind_of_ok (a := op.decisive) rfl, if_pos rfl]
  exact congrArg (Outcome.mk · _) (List.append_nil asked)

theorem run_logic_of_ne_decisive (found : left.run c = ⟨asked, .ok value⟩)
    (undecided : value ≠ op.decisive) (right : Expr .boolean) :
    (logic op left right).run c = ⟨asked ++ (right.run c).lookups, (right.run c).result⟩ := by
  rw [run, found, Outcome.bind_of_ok (a := value) rfl, if_neg undecided]

end Logic

end Expr

theorem Connective.decisive_ne {op op' : Connective} (apart : op ≠ op') :
    op.decisive ≠ op'.decisive := by
  cases op with
  | and =>
    cases op' with
    | and => exact absurd rfl apart
    | or => decide
  | or =>
    cases op' with
    | and => decide
    | or => exact absurd rfl apart

inductive ReadsTerms (allowed : Ordered → List Token → List Token → Prop) :
    List Token → Expr .boolean → List (Connective × Expr .boolean) → Prop
  | one {ts : List Token} {e : Expr .boolean} :
      ReadsCondition allowed .term ts e → ReadsTerms allowed ts e []
  | more {op : Connective} {ls rs : List Token} {first e : Expr .boolean}
      {rest : List (Connective × Expr .boolean)} :
      ReadsTerms allowed ls first rest → ReadsCondition allowed .term rs e →
        ReadsTerms allowed (ls ++ .connective op :: rs) first (rest ++ [(op, e)])

theorem readsCondition_chain_iff {allowed : Ordered → List Token → List Token → Prop}
    {ts : List Token} {e : Expr .boolean} :
    ReadsCondition allowed .chain ts e ↔
      ∃ first rest, ReadsTerms allowed ts first rest ∧ e = .chained first rest := by
  constructor
  · intro reads
    generalize level : Clause.chain = clause at reads
    induction reads with
    | comparison | parenthesized | literal | name => cases level
    | term reads => exact ⟨_, [], .one reads, rfl⟩
    | joined _ reads ih =>
      obtain ⟨first, rest, terms, rfl⟩ := ih level
      exact ⟨first, _, .more terms reads, (Expr.chained_concat first rest _ _).symm⟩
  · rintro ⟨first, rest, terms, rfl⟩
    induction terms with
    | one reads => exact .term reads
    | more _ reads ih =>
      rw [Expr.chained_concat]
      exact .joined ih reads

namespace Expr

/-- A chain is evaluated as the loop over its operands, with the same lookups. What a condition is
read as is such a chain of the terms in its row. After an operand that is left out, a later one can
still be evaluated, behind a connective that the value so far does not decide. -/
theorem run_chained_eq_loop (c : Context) :
    (∀ first rest, (chained first rest).run c = loop c first rest) ∧
      (∀ tokens stop e, Source.complete Rule.condition ⟨tokens, stop⟩ = .ok e ↔
        ∃ first rest, ReadsTerms Selected (tokens.map Located.token) first rest ∧
          e = chained first rest) ∧
      ∀ first front op op' skipped operand asked, op ≠ op' →
        (chained first front).run c = ⟨asked, .ok op.decisive⟩ →
          (chained first (front ++ [(op, skipped), (op', operand)])).run c =
            ⟨asked ++ (operand.run c).lookups, (operand.run c).result⟩ := by
  refine ⟨run_chained c, ?_, ?_⟩
  · intro tokens stop e
    rw [Source.complete_condition_eq_ok_iff, readsCondition_chain_iff]
  · intro first front op op' skipped operand asked apart decided
    rw [List.append_cons, chained_concat, chained_concat]
    exact run_logic_of_ne_decisive (run_logic_of_decisive decided skipped)
      (Connective.decisive_ne apart) operand

def gate : Context := .flat fun name =>
  if name = "ready" then some ⟨.boolean, false⟩
  else if name = "open" then some ⟨.boolean, true⟩
  else none

theorem run_chained_eq_loop_gate :
    Connective.and ≠ .or ∧
      (chained (.var "ready") []).run gate = ⟨[.value [] "ready"], .ok Connective.and.decisive⟩ ∧
      (chained (.var "ready") [(.and, .var "hidden"), (.or, .var "open")]).run gate =
        ⟨[.value [] "ready", .value [] "open"], .ok true⟩ := by
  have decided : (chained (.var "ready") []).run gate =
      ⟨[.value [] "ready"], .ok Connective.and.decisive⟩ := by rfl
  have apart : Connective.and ≠ .or := by decide
  exact ⟨apart, decided, (run_chained_eq_loop gate).2.2 (.var "ready") [] .and .or (.var "hidden")
    (.var "open") _ apart decided⟩

end Expr

end Formula
