import Formula.Proofs.Rule.Reach
import Formula.Proofs.Source.Respaced

/-! A condition that is refused is blamed no earlier than the comparison at its start, unless a bare
name stands there. -/

namespace Formula

open Rule

theorem Cursor.Ascends.split {front rest : List Located} {t : Located} {stop : Nat}
    (ascends : Ascends ⟨front ++ t :: rest, stop⟩) :
    (∀ u ∈ front, u.offset < t.offset) ∧ ∀ o ∈ (Cursor.mk rest stop).places, t.offset < o := by
  have row : (Cursor.mk (front ++ t :: rest) stop).places =
      front.map Located.offset ++ t.offset :: (Cursor.mk rest stop).places := by
    simp [places]
  rw [Ascends, row] at ascends
  rcases List.pairwise_append.mp ascends with ⟨-, behind, before⟩
  constructor
  · intro u present
    exact before _ (List.mem_map_of_mem present) _ (List.mem_cons_self ..)
  · exact (List.pairwise_cons.mp behind).1

theorem Cursor.Ascends.le_of_mem_places {front rest : List Located} {t : Located} {stop o : Nat}
    (ascends : Ascends ⟨front ++ t :: rest, stop⟩)
    (present : o ∈ (Cursor.mk (t :: rest) stop).places) : t.offset ≤ o := by
  rcases List.mem_cons.mp present with rfl | later
  · exact Nat.le_refl _
  · exact Nat.le_of_lt (ascends.split.2 o later)

namespace Source

variable {limit : Nat} {c : Cursor} {t : Located} {e r : ParseError}

theorem complete_eq_error_of_failsWith {α : Type} {rule : Rule α} (failed : FailsWith rule c e) :
    complete rule c = .error e := by
  rcases failed with ⟨left, failed⟩
  rw [complete, failed]

theorem relation_offset_le {front rest : List Located} {stop : Nat} (present : front ≠ [])
    (ascends : Cursor.Ascends ⟨front ++ t :: rest, stop⟩)
    (reached : FailsWith relation ⟨front ++ t :: rest, stop⟩ r)
    (within : ∀ o e, FailsWith (comparison o) ⟨front ++ t :: rest, stop⟩ e →
      e.offset = t.offset ∨ ∃ u ∈ front, u.offset = e.offset) : r.offset ≤ t.offset := by
  rcases ascends.split with ⟨before, -⟩
  rcases (relation_offset reached).1 with start | ⟨o, e, compared, place⟩
  · rcases List.exists_cons_of_ne_nil present with ⟨u, front, rfl⟩
    rw [start]
    exact Nat.le_of_lt (before u (List.mem_cons_self ..))
  · rw [← place]
    rcases within o e compared with here | ⟨u, present, place⟩
    · exact Nat.le_of_eq here
    · rw [← place]
      exact Nat.le_of_lt (before u present)

theorem offset_le_of_complete_condition (ascends : c.Ascends) (reached : FailsWith relation c r)
    (failed : complete condition c = .error e) (covered : ∀ t, ¬ OpensBare c.tokens t) :
    r.offset ≤ e.offset := by
  cases first : term c with
  | error e' left =>
    have same : complete condition c = .error e' := by
      apply complete_eq_error_of_failsWith
      exact ⟨left, by rw [condition_eq, chain_eq_bind, bind_run, first]⟩
    rw [same] at failed
    cases failed
    exact offset_le_of_term reached ⟨left, first⟩
  | ok value after =>
    rcases after with ⟨tokens, stop⟩
    have later := offset_mem_places_of_term first failed
    cases tokens with
    | nil =>
      have found : condition c = .ok value ⟨[], stop⟩ := condition_of_term first
      rw [complete, found] at failed
      cases failed
    | cons t rest =>
      rcases exists_front_of_term reached first (covered t) with ⟨front, present, rfl, within⟩
      calc
        r.offset ≤ t.offset := relation_offset_le present ascends reached within
        _ ≤ e.offset := ascends.le_of_mem_places later

theorem complete_condition_of_opensBare (ascends : c.Ascends) (reached : FailsWith relation c r)
    (bare : OpensBare c.tokens t) :
    complete condition c = .error (.unexpectedTrailingTokens t.token.text t.offset) ∧
      t.offset < r.offset := by
  rcases c with ⟨tokens, stop⟩
  rcases bare with ⟨front, rest, text, rfl, enclosed, operator⟩
  constructor
  · rw [complete, condition_of_enclosed reached.fails enclosed operator]
  · rcases (relation_offset reached).2 (.number .double) with ⟨e', compared, bound⟩
    have mismatch := isMismatch_of_enclosed enclosed operator compared
    exact (ascends.split.2 _ mismatch.offset_mem_places).trans_le bound

/-- Where tokens that ascend are no condition and no relation begins with the first of them, the
error is at the place that the relation reached or behind it, unless the row opens with a bare name
and an operator. Then the name is a condition, and the error is at the operator, before the place
that the relation reached. -/
theorem parseTokens_condition_reach (ascends : c.Ascends)
    (nested : checkNesting limit 0 c.tokens = .ok ())
    (failed : parseTokens condition limit c = .error e) (reached : FailsWith relation c r) :
    ((∀ t, ¬ OpensBare c.tokens t) → r.offset ≤ e.offset) ∧
      ∀ t, OpensBare c.tokens t →
        e = .unexpectedTrailingTokens t.token.text t.offset ∧ e.offset < r.offset := by
  have incomplete : complete condition c = .error e := by
    rw [parseTokens, nested] at failed
    exact failed
  constructor
  · exact offset_le_of_complete_condition ascends reached incomplete
  · intro t bare
    rcases complete_condition_of_opensBare ascends reached bare with ⟨trailing, bound⟩
    rw [incomplete] at trailing
    cases trailing
    exact ⟨rfl, bound⟩

theorem parseTokens_condition_reach_literal :
    ∃ located e r, tokens "true < 1" = .ok located ∧
      parseTokens condition defaultLimit ⟨located, 8⟩ = .error e ∧
      FailsWith relation ⟨located, 8⟩ r ∧ e.offset = 5 ∧ r.offset ≤ 5 := by
  have row : tokens "true < 1" =
      .ok [⟨.boolean true, 0⟩, ⟨.relation .lt, 5⟩, ⟨.int 1, 7⟩] := rfl
  have failed : parseTokens condition defaultLimit
      ⟨[⟨.boolean true, 0⟩, ⟨.relation .lt, 5⟩, ⟨.int 1, 7⟩], 8⟩ =
        .error (.unexpectedTrailingTokens "<" 5) := rfl
  have covered (t : Located) :
      ¬ OpensBare [⟨.boolean true, 0⟩, ⟨.relation .lt, 5⟩, ⟨.int 1, 7⟩] t := by
    rintro ⟨front, rest, text, split, enclosed, -⟩
    cases front with
    | nil => cases enclosed with | name reads => exact reads.ne_nil rfl
    | cons u front =>
      rcases List.cons.inj split with ⟨rfl, -⟩
      rcases enclosed.readsName_or_exists with reads | ⟨us, shape⟩
      · rcases reads.exists_cons with ⟨word, more, shape⟩
        cases shape
      · cases shape
  refine ⟨_, _, _, row, failed, ⟨_, rfl⟩, rfl, ?_⟩
  exact (parseTokens_condition_reach (ascends row) rfl failed ⟨_, rfl⟩).1 covered

/-- The comparison reaches the end behind the relation, but the name before the relation is a
condition. Places that do not ascend say nothing of what is reached. -/
theorem parseTokens_condition_before_reach :
    (tokens "a ==" = .ok [⟨.identifier "a", 0⟩, ⟨.relation .eq, 2⟩] ∧
      checkNesting defaultLimit 0 [⟨.identifier "a", 0⟩, ⟨.relation .eq, 2⟩] = .ok () ∧
      parseTokens condition defaultLimit ⟨[⟨.identifier "a", 0⟩, ⟨.relation .eq, 2⟩], 4⟩ =
        .error (.unexpectedTrailingTokens "==" 2) ∧
      ∃ r, FailsWith relation ⟨[⟨.identifier "a", 0⟩, ⟨.relation .eq, 2⟩], 4⟩ r ∧ ¬ r.offset ≤ 2) ∧
    (checkNesting defaultLimit 0 [⟨.boolean true, 5⟩, ⟨.relation .lt, 2⟩] = .ok () ∧
      parseTokens condition defaultLimit ⟨[⟨.boolean true, 5⟩, ⟨.relation .lt, 2⟩], 6⟩ =
        .error (.unexpectedTrailingTokens "<" 2) ∧
      ∃ r, FailsWith relation ⟨[⟨.boolean true, 5⟩, ⟨.relation .lt, 2⟩], 6⟩ r ∧ ¬ r.offset ≤ 2) := by
  refine ⟨⟨rfl, rfl, rfl, _, ⟨_, rfl⟩, ?_⟩, rfl, rfl, _, ⟨_, rfl⟩, ?_⟩ <;> decide

end Source

end Formula
