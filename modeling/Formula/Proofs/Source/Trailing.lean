import Formula.Proofs.Source.Limit
import Formula.Proofs.Source.Embedding
import Formula.Proofs.Source.Munch

/-! A source of which tokens are left over is an expression up to the first of them. -/

namespace Formula

open Lexeme

theorem Munched.exists_of_append {offset : Nat} {text : List Char}
    {located taken rest : List Located} {t : Located} (munched : Munched offset text located)
    (row : located = taken ++ t :: rest) :
    ∃ front back, text = front ++ back ∧ t.offset = offset + String.utf8Len front ∧
      Munched offset front taken := by
  induction munched generalizing taken with
  | nil => simp at row
  | @token offset blanks piece tail u located blank longest denotes munched ih =>
    cases taken with
    | nil =>
      cases row
      exact ⟨blanks, piece ++ tail, rfl, rfl, .nil blank⟩
    | cons u' taken =>
      obtain ⟨rfl, others⟩ := List.cons.inj row
      obtain ⟨front, back, rfl, place, before⟩ := ih others
      refine ⟨blanks ++ (piece ++ front), back, by simp, ?_,
        .token blank longest.of_append denotes before⟩
      rw [place, ← List.append_assoc, String.utf8Len_append (blanks ++ piece), Nat.add_assoc]

theorem Goal.takes_rule (goal : Goal) : Rule.Takes goal.rule fun ts _ e => goal.Reads ts e := by
  cases goal with
  | boolean => exact Rule.takes_condition
  | number n => exact Rule.takes_sum.mono fun _ _ _ => And.left

namespace Source

variable {goal : Goal} {limit offset : Nat} {source token : String}

theorem tokens_ne_trailing (source token : String) (offset : Nat) :
    tokens source ≠ .error (.unexpectedTrailingTokens token offset) := by
  intro failed
  obtain ⟨front, rest, located, -, -, stuck⟩ := strands_of_tokensFrom failed
  generalize cause : ParseError.unexpectedTrailingTokens token offset = e at stuck
  cases stuck with
  | unmatched _ _ _ => cases cause
  | @rejected piece f _ _ => cases f <;> cases cause

theorem exists_of_parse_eq_trailing
    (failed : parse goal.rule limit source = .error (.unexpectedTrailingTokens token offset)) :
    ∃ located e t rest stop, tokens source = .ok located ∧ checkNesting limit 0 located = .ok () ∧
      goal.rule ⟨located, source.utf8ByteSize⟩ = .ok e ⟨t :: rest, stop⟩ ∧
      t.token.text = token ∧ t.offset = offset := by
  cases found : tokens source with
  | error e =>
    rw [parse_eq_error found] at failed
    cases failed
    exact absurd found (tokens_ne_trailing source token offset)
  | ok located =>
    rw [parse_eq_parseTokens found, parseTokens] at failed
    cases checked : checkNesting limit 0 located with
    | error e =>
      obtain ⟨t, -, rfl⟩ := exists_firstTooDeep checked
      rw [checked] at failed
      cases failed
    | ok u =>
      rw [checked] at failed
      replace failed : complete goal.rule ⟨located, source.utf8ByteSize⟩ = _ := failed
      unfold complete at failed
      split at failed
      · rename_i e left refused
        cases failed
        cases Goal.isRefusal_of_rule refused
      · rename_i e after success
        obtain ⟨tokens, stop⟩ := after
        cases tokens with
        | nil => cases failed
        | cons t rest =>
          cases failed
          exact ⟨located, e, t, rest, stop, rfl, checked, success, rfl, rfl⟩

theorem checkNesting_of_append {taken rest : List Located}
    (checked : checkNesting limit 0 (taken ++ rest) = .ok ()) :
    checkNesting limit 0 taken = .ok () := by
  rw [checkNesting_eq_ok_iff_forall] at checked ⊢
  intro run within
  apply checked run
  rw [List.map_append]
  exact within.trans (List.prefix_append _ _).isInfix

end Source

namespace Expr

variable {goal : Goal} {limit offset : Nat} {source token : String}

/-- Where tokens are left over, the rule has made an expression of those before them, and the text
before the first one left over is a source of that expression. -/
theorem ofSource_before_trailing
    (failed : ofSource goal limit source = .error (.unexpectedTrailingTokens token offset)) :
    ∃ located e t rest before after,
      Source.tokens source = .ok located ∧
      goal.rule ⟨located, source.utf8ByteSize⟩ = .ok e ⟨t :: rest, source.utf8ByteSize⟩ ∧
      t.token.text = token ∧ t.offset = offset ∧
      source = before ++ after ∧ before.utf8ByteSize = offset ∧
      ofSource goal limit before = .ok e := by
  obtain ⟨located, e, t, rest, stop, found, checked, success, named, rfl⟩ :=
    Source.exists_of_parse_eq_trailing failed
  obtain ⟨taken, start, reads⟩ := goal.takes_rule _ _ _ success
  obtain ⟨rfl, rfl⟩ := Cursor.mk.inj start
  have munched : Munched 0 source.toList (taken ++ t :: rest) :=
    munched_iff_cut.mpr (Source.tokensFrom_eq_ok_iff.mp found)
  obtain ⟨front, back, shape, place, munched⟩ := munched.exists_of_append rfl
  have cut : Source.tokens (String.ofList front) = .ok taken := by
    rw [Source.tokens, String.toList_ofList]
    exact Source.tokensFrom_eq_ok_iff.mpr (munched_iff_cut.mp munched)
  have accepted : Source.parseTokens goal.rule limit
      ⟨taken, (String.ofList front).utf8ByteSize⟩ = .ok e :=
    Source.parseTokens_rule_eq_ok_iff.mpr
      ⟨Source.checkNesting_eq_ok_iff.mp (Source.checkNesting_of_append checked), reads⟩
  refine ⟨_, e, t, rest, String.ofList front, String.ofList back, found, success, named, rfl, ?_,
    ?_, Source.parse_eq_ok_iff.mpr ⟨taken, cut, accepted⟩⟩
  · rw [← String.ofList_append, ← shape, String.ofList_toList]
  · rw [String.utf8ByteSize_ofList, place, Nat.zero_add]

theorem ofSource_before_plus :
    ofSource .boolean 0 "a == b + 1" = .error (.unexpectedTrailingTokens "+" 7) ∧
      ∃ before after e, "a == b + 1" = before ++ after ∧ before.utf8ByteSize = 7 ∧
        ofSource .boolean 0 before = .ok e := by
  have row : Source.tokens "a == b + 1" =
      .ok [⟨.identifier "a", 0⟩, ⟨.relation .eq, 2⟩, ⟨.identifier "b", 5⟩, ⟨.arithmetic .add, 7⟩,
        ⟨.int 1, 9⟩] := rfl
  have failed : ofSource .boolean 0 "a == b + 1" = .error (.unexpectedTrailingTokens "+" 7) := by
    rw [ofSource, Source.parse_eq_parseTokens row]
    rfl
  obtain ⟨-, e, -, -, before, after, -, -, -, -, parts⟩ := ofSource_before_trailing failed
  exact ⟨failed, before, after, e, parts⟩

end Expr
end Formula
