import Formula.Proofs.Rule.Blame

/-! What rules fail for: they refuse what comes next. They neither count parentheses nor ask for the
end of a source. -/

namespace Formula

inductive ParseError.IsRefusal : ParseError → Prop
  | token (token expected : String) (offset : Nat) :
      IsRefusal (.unexpectedToken token expected offset)
  | ended (expected : String) (offset : Nat) : IsRefusal (.unexpectedEndOfInput expected offset)
  | tooLarge (literal : String) (offset : Nat) : IsRefusal (.literalTooLarge literal offset)
  | choice (furthest : Nat) (trace : List String) :
      IsRefusal (.noMatchingAlternative furthest trace)

theorem Numeric.isRefusal_of_literal? {n : Numeric} {negative : Bool} {start : Nat} {t : Token}
    {e : ParseError} (found : n.literal? negative start t = some (.error e)) : e.IsRefusal := by
  have isLiteral : n.IsLiteral t := by
    by_contra other
    rw [literal?_eq_none other] at found
    cases found
  obtain ⟨value, inside⟩ | beyond := literal?_of_isLiteral isLiteral negative start
  · rw [inside] at found
    cases found
  · rw [beyond] at found
    cases found
    exact .tooLarge _ _

theorem Place.isRefusal_error (n : Numeric) (place : Place) (next : Located) :
    (place.error n next).IsRefusal := by
  unfold Place.error
  split
  · rename_i e found
    cases place with
    | operand | sign start => exact Numeric.isRefusal_of_literal? found
    | segment | name | value => cases found
  · exact .token _ _ _

namespace Rule

variable {α : Type} {operand : Rule α} {join : Token → Option (α → α → α)} {c left : Cursor}
  {e : ParseError}

theorem isRefusal_of_sum {n : Numeric} (failed : sum n c = .error e left) : e.IsRefusal := by
  obtain ⟨front, back, spot, -, -, -, stops⟩ :=
    Spot.blames_sum _ c e left 0 (Nat.lt_succ_self _) failed
  cases stops with
  | ended => exact .ended _ _
  | token rest refused => exact Place.isRefusal_error _ _ _

theorem isRefusal_of_choice {alternatives : List (String × Rule α)}
    (failed : choice alternatives c = .error e left) : e.IsRefusal := by
  unfold choice at failed
  generalize c.offset = furthest at failed
  generalize ([] : List String) = trace at failed
  induction alternatives generalizing furthest trace with
  | nil =>
    cases failed
    exact .choice _ _
  | cons alternative rest ih =>
    simp only [firstOf] at failed
    split at failed
    · cases failed
    · exact ih _ _ failed

theorem exists_of_chainFrom_eq_error (steps : Nat) {value : α}
    (failed : chainFrom operand join steps value c = .error e left) :
    ∃ start, operand start = .error e left := by
  induction steps generalizing value c with
  | zero => cases failed
  | succ steps ih =>
    obtain ⟨tokens, stop⟩ := c
    cases tokens with
    | nil => cases failed
    | cons t rest =>
      rw [chainFrom_cons] at failed
      split at failed
      · cases failed
      · obtain failed | ⟨right, between, -, failed⟩ := bind_eq_error_iff.mp failed
        · exact ⟨_, failed⟩
        · exact ih failed

theorem exists_of_chain_eq_error (failed : chain operand join c = .error e left) :
    ∃ start, operand start = .error e left := by
  rw [chain_eq_bind] at failed
  obtain failed | ⟨value, between, -, failed⟩ := bind_eq_error_iff.mp failed
  · exact ⟨c, failed⟩
  · exact exists_of_chainFrom_eq_error _ failed

theorem isRefusal_of_condition (failed : condition c = .error e left) : e.IsRefusal := by
  rw [condition_eq, term_eq] at failed
  obtain ⟨start, failed⟩ := exists_of_chain_eq_error failed
  exact isRefusal_of_choice failed

end Rule

theorem Goal.isRefusal_of_rule {goal : Goal} {c left : Cursor} {e : ParseError}
    (failed : goal.rule c = .error e left) : e.IsRefusal := by
  cases goal with
  | boolean => exact Rule.isRefusal_of_condition failed
  | number n => exact Rule.isRefusal_of_sum failed

end Formula
