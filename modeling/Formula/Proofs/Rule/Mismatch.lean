import Formula.Proofs.Rule.Choice
import Formula.Proofs.Rule.Moved
import Formula.Proofs.Rule.Viable
import Formula.Proofs.Source.Cut

/-! Where rules fail: a rule without alternatives does so at a token, or at the end if it is asked
for more tokens there, and a choice does so at one of these places. -/

namespace Formula

inductive ParseError.IsAt (row : List Located) : ParseError → Prop
  | token {t : Located} (expected : String) :
      t ∈ row → IsAt row (.unexpectedToken t.token.text expected t.offset)
  | tooLarge {t : Located} : t ∈ row → IsAt row (.literalTooLarge t.token.text t.offset)
  | negative {sign t : Located} :
      [sign, t] <:+: row → sign.token = .arithmetic .sub →
      IsAt row (.literalTooLarge ("-" ++ t.token.text) sign.offset)

/-- The row is at fault at one of its tokens, or at its end, where more tokens are expected. -/
inductive ParseError.IsMismatch (c : Cursor) : ParseError → Prop
  | token {e : ParseError} : e.IsAt c.tokens → IsMismatch c e
  | ended (expected : String) : IsMismatch c (.unexpectedEndOfInput expected c.stop)

theorem Cursor.mem_places_iff {c : Cursor} {o : Nat} :
    o ∈ c.places ↔ (∃ t ∈ c.tokens, t.offset = o) ∨ o = c.stop := by
  simp [places]

namespace ParseError

variable {e : ParseError}

theorem IsAt.mono {row row' : List Located} (at' : e.IsAt row) (within : row <:+: row') :
    e.IsAt row' := by
  cases at' with
  | token expected present => exact .token expected (within.subset present)
  | tooLarge present => exact .tooLarge (within.subset present)
  | negative pair minus => exact .negative (pair.trans within) minus

theorem IsAt.exists_offset {row : List Located} (at' : e.IsAt row) : ∃ t ∈ row, t.offset = e.offset := by
  cases at' with
  | token _ present => exact ⟨_, present, rfl⟩
  | tooLarge present => exact ⟨_, present, rfl⟩
  | negative pair _ => exact ⟨_, pair.subset (List.mem_cons_self ..), rfl⟩

theorem IsMismatch.behind {rest : List Located} {stop : Nat}
    (mismatch : IsMismatch ⟨rest, stop⟩ e) (taken : List Located) :
    IsMismatch ⟨taken ++ rest, stop⟩ e := by
  cases mismatch with
  | token at' => exact .token (at'.mono (List.suffix_append taken rest).isInfix)
  | ended expected => exact .ended expected

theorem IsMismatch.offset_mem_places {c : Cursor} (mismatch : e.IsMismatch c) :
    e.offset ∈ c.places := by
  cases mismatch with
  | token at' => exact Cursor.mem_places_iff.mpr (.inl at'.exists_offset)
  | ended expected => exact Cursor.mem_places_iff.mpr (.inr rfl)

theorem IsMismatch.linesUnder {c : Cursor} (mismatch : IsMismatch c e) (label : String) :
    e.linesUnder label = [s!"{label}: {e.message}"] := by
  cases mismatch with
  | token at' => cases at' <;> rfl
  | ended expected => rfl

end ParseError

namespace Rule

variable {α β : Type} {c left : Cursor} {e : ParseError}

def Mismatches (rule : Rule α) : Prop := ∀ c e left, rule c = .error e left → e.IsMismatch c

theorem mismatches_pure (a : α) : Mismatches (pure a) := fun _ _ _ failed => by cases failed

theorem mismatches_take {expected : String} {read : Token → Option α} :
    Mismatches (take expected read) := by
  rintro ⟨tokens, stop⟩ e left failed
  cases tokens with
  | nil =>
    cases failed
    exact .ended expected
  | cons t rest =>
    rw [take_cons] at failed
    split at failed <;> cases failed
    exact .token (.token expected (List.mem_cons_self ..))

theorem mismatches_refuse {expected : String} : Mismatches (refuse expected : Rule α) := by
  rintro ⟨tokens, stop⟩ e left failed
  cases tokens with
  | nil =>
    cases failed
    exact .ended expected
  | cons t rest =>
    cases failed
    exact .token (.token expected (List.mem_cons_self ..))

theorem mismatches_map {f : α → β} {rule : Rule α} (mismatches : Mismatches rule) :
    Mismatches (f <$> rule) :=
  fun _ _ _ failed => mismatches _ _ _ (map_eq_error_iff.mp failed)

theorem mismatches_bind {first : Rule α} {second : α → Rule β} (advances : Advances first)
    (mismatches : Mismatches first) (mismatches' : ∀ a, Mismatches (second a)) :
    Mismatches (first >>= second) := by
  intro c e left failed
  rcases bind_eq_error_iff.mp failed with failed | ⟨a, between, found, failed⟩
  · exact mismatches _ _ _ failed
  · rcases advances _ _ _ found with ⟨taken, start, -⟩
    rw [start]
    exact (mismatches' a _ _ _ failed).behind taken

section Chain

variable {operand : Rule α} {join : Token → Option (α → α → α)}

theorem mismatches_chainFrom (advances : Advances operand) (mismatches : Mismatches operand)
    (steps : Nat) (a : α) : Mismatches (chainFrom operand join steps a) := by
  induction steps generalizing a with
  | zero => exact mismatches_pure a
  | succ steps ih =>
    rintro ⟨tokens, stop⟩ e left failed
    cases tokens with
    | nil => cases failed
    | cons t rest =>
      rw [chainFrom_cons] at failed
      split at failed
      · cases failed
      · rename_i combine _
        have behind : Mismatches (operand >>= fun right =>
            chainFrom operand join steps (combine a right)) :=
          mismatches_bind advances mismatches fun right => ih (combine a right)
        exact (behind _ _ _ failed).behind [t]

theorem mismatches_chain (advances : Advances operand) (mismatches : Mismatches operand) :
    Mismatches (chain operand join) := by
  rw [chain_eq_bind]
  exact mismatches_bind advances mismatches fun a c =>
    mismatches_chainFrom advances mismatches c.tokens.length a c

end Chain

theorem mismatches_name {kind : Kind} : Mismatches (name : Rule (Expr kind)) :=
  mismatches_map (mismatches_chain takes_take.advances mismatches_take)

section Sum

variable {n : Numeric}

theorem exists_sign_of_walk {s r : Spot} {front : List Located} {offset : Nat}
    (fresh : ∀ start, s.place ≠ .sign start) (walked : Spot.walk n s front = some r)
    (place : r.place = .sign offset) :
    ∃ before sign, front = before ++ [sign] ∧ sign.token = .arithmetic .sub ∧
      sign.offset = offset := by
  rcases List.eq_nil_or_concat' front with rfl | ⟨before, sign, rfl⟩
  · cases walked
    exact absurd place (fresh offset)
  · rw [Spot.walk_append] at walked
    rcases Option.bind_eq_some_iff.mp walked with ⟨q, -, last⟩
    rw [Spot.walk_cons] at last
    rcases Option.bind_eq_some_iff.mp last with ⟨q', next, final⟩
    cases final
    rcases Spot.after_eq_sign next place with ⟨-, minus, start⟩
    exact ⟨before, sign, rfl, minus, start⟩

theorem isAt_of_after_eq_none {s r : Spot} {front : List Located} {t : Located}
    (fresh : ∀ start, s.place ≠ .sign start) (walked : Spot.walk n s front = some r)
    (refused : r.after n t = none) : (r.place.error n t).IsAt (front ++ [t]) := by
  have present : t ∈ front ++ [t] := List.mem_append_right front (List.mem_singleton_self t)
  by_cases due : n.IsLiteral t.token ∧ r.place.awaitsLiteral
  · rcases r with ⟨place, opened⟩
    rcases due with ⟨isLiteral, awaits⟩
    cases place with
    | operand =>
      rw [Spot.error_operand isLiteral refused]
      exact .tooLarge present
    | sign offset =>
      rcases exists_sign_of_walk fresh walked rfl with ⟨before, sign, rfl, minus, rfl⟩
      rw [Spot.error_sign isLiteral refused]
      exact .negative ⟨before, [], by simp⟩ minus
    | segment | name | value => cases awaits
  · rw [Spot.error_other due]
    exact .token _ present

theorem isMismatch_of_stops {s r : Spot} {front back : List Located} {stop : Nat}
    (fresh : ∀ start, s.place ≠ .sign start) (walked : Spot.walk n s front = some r)
    (stops : r.Stops n stop back e) : e.IsMismatch ⟨front ++ back, stop⟩ := by
  cases stops with
  | ended => exact .ended _
  | @token t rest refused =>
    exact .token ((isAt_of_after_eq_none fresh walked refused).mono ⟨[], rest, by simp⟩)

/-- A sum that fails has walked over the tokens before those at which it stops. -/
theorem exists_walk_of_sum (failed : FailsWith (sum n) c e) :
    ∃ front back r, c.tokens = front ++ back ∧ Spot.walk n Spot.start front = some r ∧
      r.Stops n c.stop back e := by
  rcases failed with ⟨left, failed⟩
  rcases Spot.blames_sum _ _ _ _ 0 (Nat.lt_succ_self _) failed with
    ⟨front, back, r, split, walked, -, stops⟩
  exact ⟨front, back, r, split, walked, stops⟩

theorem mismatches_sum : Mismatches (sum n) := by
  rintro ⟨tokens, stop⟩ e left failed
  rcases exists_walk_of_sum ⟨left, failed⟩ with ⟨front, back, r, rfl, walked, stops⟩
  exact isMismatch_of_stops (by simp [Spot.start]) walked stops

end Sum

theorem mismatches_stringOperand : Mismatches stringOperand := by
  rintro ⟨tokens, stop⟩ e left failed
  cases tokens with
  | nil =>
    cases failed
    exact .ended _
  | cons t rest =>
    rw [stringOperand_cons] at failed
    split at failed
    · cases failed
    · exact mismatches_name _ _ _ failed
    · exact mismatches_refuse _ _ _ failed

theorem mismatches_instantOperand : Mismatches instantOperand := by
  rintro ⟨tokens, stop⟩ e left failed
  cases tokens with
  | nil =>
    cases failed
    exact .ended _
  | cons t rest =>
    rw [instantOperand_cons] at failed
    split at failed
    · cases failed
    · exact mismatches_name _ _ _ failed
    · exact mismatches_refuse _ _ _ failed

theorem mismatches_operand (o : Ordered) : Mismatches (operand o) := by
  cases o with
  | string => exact mismatches_stringOperand
  | instant => exact mismatches_instantOperand
  | number n => exact mismatches_sum

theorem advances_operand (o : Ordered) : Advances (operand o) :=
  fun c _ _ found => (takes_operandWithin c.tokens.length o).advances _ _ _ found

theorem mismatches_comparison (o : Ordered) : Mismatches (comparison o) := by
  rw [comparison_eq]
  exact mismatches_bind (advances_operand o) (mismatches_operand o) fun l =>
    mismatches_bind takes_take.advances mismatches_take fun op =>
      mismatches_bind (advances_operand o) (mismatches_operand o) fun r => mismatches_pure _

end Rule

namespace Rule

variable {α : Type} {rule : Rule α} {c left : Cursor} {e : ParseError}

theorem keepsMax_mem (places : List Nat) : KeepsMax fun o o' => o = o' ∧ o ∈ places := by
  rintro o _ q _ ⟨rfl, present⟩ ⟨rfl, present'⟩
  refine ⟨rfl, ?_⟩
  rcases max_choice o q with greatest | greatest <;> rwa [greatest]

theorem moved_places (c : Cursor) : c.Moved (fun o o' => o = o' ∧ o ∈ c.places) c := by
  refine ⟨List.forall₂_same.mpr fun t present => ⟨rfl, rfl, ?_⟩, rfl, ?_⟩
  · exact Cursor.mem_places_iff.mpr (.inl ⟨t, present, rfl⟩)
  · exact Cursor.mem_places_iff.mpr (.inr rfl)

/-- A rule that reads no places fails at one of those that it is given. -/
theorem offset_mem_places (uniform : Uniform (fun o o' => o = o' ∧ o ∈ c.places) rule)
    (failed : rule c = .error e left) : e.offset ∈ c.places := by
  have ends := uniform c c (moved_places c)
  rw [failed] at ends
  exact ends.2.2

theorem offset_mem_places_of_complete
    (uniform : Uniform (fun o o' => o = o' ∧ o ∈ c.places) rule)
    (failed : Source.complete rule c = .error e) : e.offset ∈ c.places := by
  rcases Source.agree_complete uniform (moved_places c) with
    ⟨a, found, -⟩ | ⟨e', e'', found, -, -, -, present⟩
  · rw [found] at failed
    cases failed
  · rw [found] at failed
    cases failed
    exact present

theorem isMismatch_or_choice_of_rule {goal : Goal} (failed : FailsWith goal.rule c e) :
    e.IsMismatch c ∨ e.offset ∈ c.places ∧ ∃ trace, e = .noMatchingAlternative e.offset trace := by
  cases goal with
  | number n =>
    rcases failed with ⟨left, failed⟩
    exact .inl (mismatches_sum c e left failed)
  | boolean =>
    have failed' : FailsWith (chain term joinCondition) c e := by rwa [← condition_eq]
    rw [term_eq] at failed'
    rcases exists_of_chain_failsWith failed' with ⟨inner, failed'⟩
    rcases exists_of_choice_eq_error failed' with ⟨_, _, _, rfl, -⟩
    rcases failed with ⟨left, failed⟩
    exact .inr ⟨offset_mem_places (uniform_condition (keepsMax_mem _)) failed, _, rfl⟩

end Rule

end Formula
