import Formula.Proofs.Bindings.Path

/-! Where the walk to a name in bindings ends without a value: at a segment that has no binding, or
that has one of the sort that is not asked for there. -/

namespace Formula.Bindings

variable {b inner : Bindings} {front rest : List String} {first text name other missing : String}
  {error : EvalError} {kind : Kind}

theorem value?_eq_none_iff :
    b.value? name = none ↔
      b.find? name = none ∨ ∃ inner, b.find? name = some (.child inner) := by
  rw [value?]
  cases b.find? name with
  | none => simp
  | some entry => cases entry <;> simp

theorem child?_eq_none_iff :
    b.child? name = none ↔ b.find? name = none ∨ ∃ v, b.find? name = some (.value v) := by
  rw [child?]
  cases b.find? name with
  | none => simp
  | some entry => cases entry <;> simp

/-- The bindings have nothing for a segment of a path: no value at the end of it, and no child where
more segments stand behind. -/
def Lacks (b : Bindings) (segment : String) : List String → Prop
  | [] => b.value? segment = none
  | _ :: _ => b.child? segment = none

theorem lacks_iff {segment : String} {behind : List String} :
    b.Lacks segment behind ↔
      b.find? segment = none ∨ (behind ≠ [] ∧ ∃ v, b.find? segment = some (.value v)) ∨
        (behind = [] ∧ ∃ inner, b.find? segment = some (.child inner)) := by
  cases behind with
  | nil => simp [Lacks, value?_eq_none_iff]
  | cons next behind => simp [Lacks, child?_eq_none_iff]

/-- The segment of a path up to which there are children, and for which the last of them has
nothing. -/
inductive Stops : Bindings → String → List String → String → Prop
  | here {b : Bindings} {first : String} {rest : List String} :
      b.Lacks first rest → Stops b first rest first
  | within {b inner : Bindings} {first next missing : String} {rest : List String} :
      b.child? first = some inner → Stops inner next rest missing →
        Stops b first (next :: rest) missing

theorem stops_iff :
    b.Stops first rest missing ↔
      ∃ front behind inner, first :: rest = front ++ missing :: behind ∧
        b.descend front = some inner ∧ inner.Lacks missing behind := by
  constructor
  · intro stops
    induction stops with
    | @here b first rest lacks => exact ⟨[], rest, b, rfl, rfl, lacks⟩
    | @within b inner first next missing rest child _ ih =>
      obtain ⟨front, behind, deeper, cut, reached, lacks⟩ := ih
      refine ⟨first :: front, behind, deeper, by rw [cut, List.cons_append], ?_, lacks⟩
      rw [descend, child]
      exact reached
  · rintro ⟨front, behind, inner, cut, reached, lacks⟩
    induction front generalizing b first rest with
    | nil =>
      cases cut
      cases reached
      exact .here lacks
    | cons segment front ih =>
      rw [List.cons_append, List.cons.injEq] at cut
      obtain ⟨rfl, cut⟩ := cut
      obtain ⟨child, found, reached⟩ := Option.bind_eq_some_iff.mp reached
      cases rest with
      | nil => simp at cut
      | cons next rest => exact .within found (ih cut reached)

theorem find_context_eq_error_iff (reached : b.descend front = some inner) :
    (b.context.find text front first rest).result = .error error ↔
      ∃ missing, error = .variableNotFound text missing ∧ inner.Stops first rest missing := by
  -- Every segment but the last leads on to a child, in which the walk is the same again.
  induction rest generalizing inner front first with
  | nil =>
    rw [find_context_nil first reached]
    cases found : inner.value? first with
    | none =>
      constructor
      · intro failed
        cases failed
        exact ⟨first, rfl, .here found⟩
      · rintro ⟨missing, rfl, stops⟩
        cases stops
        rfl
    | some v =>
      refine iff_of_false nofun ?_
      rintro ⟨missing, -, ⟨lacks⟩⟩
      rw [Lacks, found] at lacks
      cases lacks
  | cons next rest ih =>
    rw [find_context_cons first next rest reached]
    cases child : inner.child? first with
    | none =>
      constructor
      · intro failed
        cases failed
        exact ⟨first, rfl, .here child⟩
      · rintro ⟨missing, rfl, lacks | ⟨found, -⟩⟩
        · rfl
        · rw [child] at found
          cases found
    | some deeper =>
      rw [ih (by rw [descend_concat, reached, Option.bind_some, child])]
      refine exists_congr fun missing => and_congr_right fun _ => ⟨.within child, ?_⟩
      rintro (lacks | ⟨found, stops⟩)
      · rw [Lacks, child] at lacks
        cases lacks
      · rw [child, Option.some.injEq] at found
        rwa [found]

/-- A variable is not found exactly if its path stops at a segment: those before it lead to
children, and it is not bound there, or it is bound to a value although segments stand behind it, or
to a child although none does. -/
theorem resolve_context_eq_variableNotFound_iff :
    (b.context.resolve kind name).result = .error (.variableNotFound other missing) ↔
      other = name ∧ ∃ front behind inner,
        (Name.ofText name).segments = front ++ missing :: behind ∧ b.descend front = some inner ∧
          (inner.find? missing = none ∨
            (behind ≠ [] ∧ ∃ v, inner.find? missing = some (.value v)) ∨
            (behind = [] ∧ ∃ deeper, inner.find? missing = some (.child deeper))) := by
  have start : b.descend [] = some b := rfl
  simp only [← lacks_iff, Name.segments, ← stops_iff]
  constructor
  · intro failed
    obtain ⟨missing', same, found⟩ | ⟨v, different, -⟩ := Context.resolve_eq_error_iff.mp failed
    · obtain ⟨missing', same', stops⟩ := (find_context_eq_error_iff start).mp found
      cases same
      cases same'
      exact ⟨rfl, stops⟩
    · cases different
  · rintro ⟨rfl, stops⟩
    exact Context.resolve_eq_error_iff.mpr
      (.inl ⟨missing, rfl, (find_context_eq_error_iff start).mpr ⟨missing, rfl, stops⟩⟩)

/-- The missing segment of `a.b` is `a`, which is bound to a value. -/
theorem not_forall_missing_unbound :
    ¬ ∀ (b : Bindings) (kind : Kind) (name other missing : String),
      (b.context.resolve kind name).result = .error (.variableNotFound other missing) →
        other = name ∧ ∃ front behind inner,
          (Name.ofText name).segments = front ++ missing :: behind ∧
            b.descend front = some inner ∧ inner.find? missing = none := by
  intro all
  have failed : ((value "a" ⟨.string, "x"⟩ empty).context.resolve .int "a.b").result =
      .error (.variableNotFound "a.b" "a") := by rfl
  obtain ⟨-, front, behind, inner, cut, reached, unbound⟩ := all _ _ _ _ _ failed
  have segments : (Name.ofText "a.b").segments = ["a", "b"] := by rfl
  rw [segments] at cut
  cases front with
  | nil =>
    cases reached
    cases unbound
  | cons segment front =>
    rw [List.cons_append, List.cons.injEq] at cut
    cases front with
    | nil => exact absurd (List.cons.inj cut.2).1 (by decide)
    | cons segment' front => simp at cut

end Formula.Bindings
