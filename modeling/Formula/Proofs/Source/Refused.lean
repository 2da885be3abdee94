import Formula.Proofs.Rule.Choice
import Formula.Proofs.Source.Trailing

/-! The stages at which a row of tokens is refused: the check of its nesting, the rule, and the tokens
that the rule leaves. -/

namespace Formula.Source

open Rule

inductive Refused (goal : Goal) (limit : Nat) (c : Cursor) : ParseError → Prop
  | tooDeep {t : Located} :
      FirstTooDeep limit c.tokens t → Refused goal limit c (.nestingTooDeep limit t.offset)
  | rule {e : ParseError} :
      checkNesting limit 0 c.tokens = .ok () → FailsWith goal.rule c e → Refused goal limit c e
  | trailing {value : Expr goal.kind} {t : Located} {rest : List Located} :
      checkNesting limit 0 c.tokens = .ok () → goal.rule c = .ok value ⟨t :: rest, c.stop⟩ →
      Refused goal limit c (.unexpectedTrailingTokens t.token.text t.offset)

variable {goal : Goal} {limit : Nat} {c : Cursor} {e : ParseError} {source : String}

theorem refused_of_parseTokens (failed : parseTokens goal.rule limit c = .error e) :
    Refused goal limit c e := by
  rw [parseTokens] at failed
  cases checked : checkNesting limit 0 c.tokens with
  | error e' =>
    rcases exists_firstTooDeep checked with ⟨t, first, rfl⟩
    rw [checked] at failed
    cases failed
    exact .tooDeep first
  | ok _ =>
    rw [checked] at failed
    have incomplete : complete goal.rule c = .error e := failed
    unfold complete at incomplete
    split at incomplete
    · rename_i left refused
      cases incomplete
      exact .rule checked ⟨left, refused⟩
    · rename_i value after success
      split at incomplete <;> cases incomplete
      rename_i t rest shape
      rcases after with ⟨tokens, stop⟩
      rcases goal.takes_rule _ _ _ success with ⟨taken, start, -⟩
      cases shape
      cases start
      exact .trailing checked success

theorem refused_of_ofSource (failed : Expr.ofSource goal limit source = .error e) :
    tokens source = .error e ∨
      ∃ located, tokens source = .ok located ∧
        Refused goal limit ⟨located, source.utf8ByteSize⟩ e := by
  cases found : tokens source with
  | error e' =>
    rw [Expr.ofSource, parse_eq_error found] at failed
    cases failed
    exact .inl rfl
  | ok located =>
    rw [Expr.ofSource, parse_eq_parseTokens found] at failed
    exact .inr ⟨located, rfl, refused_of_parseTokens failed⟩

end Formula.Source
