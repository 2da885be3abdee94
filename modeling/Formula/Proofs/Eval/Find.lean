import Formula.Eval

/-! A name is found segment by segment: each lookup of the walk and what follows from its answer. -/

namespace Formula

namespace Outcome

variable {α β : Type} {first : Outcome α}

theorem result_bind (first : Outcome α) (second : α → Outcome β) :
    (first >>= second).result = first.result.bind fun a => (second a).result := by
  change (Outcome.bind first second).result = _
  unfold Outcome.bind
  cases first.result <;> rfl

theorem result_bind_eq_error_iff {second : α → Outcome β} {error : EvalError} :
    (first >>= second).result = .error error ↔
      first.result = .error error ∨
        ∃ a, first.result = .ok a ∧ (second a).result = .error error := by
  rw [result_bind]
  cases first.result with
  | error error' => simp [Except.bind]
  | ok a => simp [Except.bind]

theorem bind_of_ok {a : α} (found : first.result = .ok a) (second : α → Outcome β) :
    first >>= second = ⟨first.lookups ++ (second a).lookups, (second a).result⟩ := by
  change Outcome.bind first second = _
  rw [Outcome.bind, found]

theorem bind_of_error {error : EvalError} (failed : first.result = .error error)
    (second : α → Outcome β) : first >>= second = ⟨first.lookups, .error error⟩ := by
  change Outcome.bind first second = _
  rw [Outcome.bind, failed]

theorem bind_bind {γ : Type} (first : Outcome α) (second : α → Outcome β) (third : β → Outcome γ) :
    first >>= second >>= third = first >>= fun a => second a >>= third := by
  cases result : first.result with
  | error error =>
    rw [bind_of_error result, bind_of_error result]
    rfl
  | ok a =>
    rw [bind_of_ok result, bind_of_ok result]
    cases result' : (second a).result with
    | error error =>
      rw [bind_of_error result']
      rfl
    | ok b => rw [bind_of_ok result', bind_of_ok (a := b) rfl, List.append_assoc]

end Outcome

namespace Context

variable (c : Context) (name : String) (path : List String) (segment : String)

theorem find_nil :
    c.find name path segment [] =
      ⟨[.value path segment],
        match c.value path segment with
        | some v => .ok v
        | none => .error (.variableNotFound name segment)⟩ := by
  rw [find, Outcome.bind_of_ok (a := c.value path segment) rfl]
  cases c.value path segment <;> rfl

theorem find_cons_of_hasChild {next : String} {rest : List String}
    (child : c.hasChild path segment) :
    c.find name path segment (next :: rest) =
      ⟨.child path segment :: (c.find name (path ++ [segment]) next rest).lookups,
        (c.find name (path ++ [segment]) next rest).result⟩ := by
  rw [find, Outcome.bind_of_ok (a := c.hasChild path segment) rfl, if_pos child]
  rfl

theorem find_cons_of_not_hasChild {next : String} {rest : List String}
    (none : c.hasChild path segment = false) :
    c.find name path segment (next :: rest) =
      ⟨[.child path segment], .error (.variableNotFound name segment)⟩ := by
  rw [find, Outcome.bind_of_ok (a := c.hasChild path segment) rfl, none]
  rfl

section Outcomes

variable {c name path segment} {rest : List String} {error : EvalError} {kind : Kind}
  {other missing : String}

theorem exists_of_find_eq_error (failed : (c.find name path segment rest).result = .error error) :
    ∃ missing, error = .variableNotFound name missing := by
  induction rest generalizing path segment with
  | nil =>
    rw [find_nil] at failed
    cases found : c.value path segment with
    | none =>
      rw [found] at failed
      cases failed
      exact ⟨segment, rfl⟩
    | some v =>
      rw [found] at failed
      cases failed
  | cons next rest ih =>
    cases child : c.hasChild path segment with
    | false =>
      rw [find_cons_of_not_hasChild _ _ _ _ child] at failed
      cases failed
      exact ⟨segment, rfl⟩
    | true =>
      rw [find_cons_of_hasChild _ _ _ _ child] at failed
      exact ih failed

theorem result_resolve :
    (c.resolve kind name).result =
      (c.find name [] (Name.ofText name).first (Name.ofText name).rest).result.bind fun v =>
        match v.as? kind with
        | some content => .ok content
        | none => .error (.kindMismatch name kind v.kind) := by
  rw [resolve, Outcome.result_bind]
  congr 1
  funext v
  cases v.as? kind <;> rfl

theorem resolve_eq_error_iff :
    (c.resolve kind name).result = .error error ↔
      (∃ missing, error = .variableNotFound name missing ∧
        (c.find name [] (Name.ofText name).first (Name.ofText name).rest).result =
          .error (.variableNotFound name missing)) ∨
      ∃ v, error = .kindMismatch name kind v.kind ∧ v.kind ≠ kind ∧
        (c.find name [] (Name.ofText name).first (Name.ofText name).rest).result = .ok v := by
  rw [result_resolve]
  cases found : (c.find name [] (Name.ofText name).first (Name.ofText name).rest).result with
  | error error' =>
    obtain ⟨missing, rfl⟩ := exists_of_find_eq_error found
    simp [Except.bind, eq_comm]
  | ok v =>
    simp only [Except.bind]
    cases content : v.as? kind with
    | none =>
      have apart : kind ≠ v.kind := Ne.symm (Value.as?_eq_none_iff.mp content)
      simp [apart, eq_comm]
    | some content' =>
      have same : v.kind = kind := by
        apply Decidable.byContradiction
        intro other
        rw [Value.as?_eq_none_iff.mpr other] at content
        cases content
      simp [same]

end Outcomes

end Context

end Formula
