import Formula.Proofs.Rule.Trace
import Formula.Proofs.Source.Points

/-! The trace that is reported for a source leaves no failure out. -/

namespace Formula

open Rule

namespace Source

variable {limit furthest : Nat} {source : String} {trace : List String} {c : Cursor}

theorem tokens_ne_choice (source : String) (furthest : Nat) (trace : List String) :
    tokens source ≠ .error (.noMatchingAlternative furthest trace) := by
  intro failed
  rcases rejects_of_tokens failed with ⟨f, piece, same, -⟩
  cases f <;> cases same

theorem Refused.failsWith_condition
    (refused : Refused .boolean limit c (.noMatchingAlternative furthest trace)) :
    checkNesting limit 0 c.tokens = .ok () ∧
      FailsWith condition c (.noMatchingAlternative furthest trace) := by
  cases refused with
  | rule checked failed => exact ⟨checked, failed⟩

end Source

namespace Expr

/-- A source with tokens that is no condition for want of an alternative has a term that is due and
fails. The trace is made of all failures of that term: those of the comparisons, of the parentheses
with the terms in them that fail, of the literal and of the name. Terms nest no deeper in it than the
limit allows, and the offset is the furthest one of the failures. -/
theorem ofSource_trace_complete {limit furthest : Nat} {source : String} {trace : List String}
    (failed : ofSource .boolean limit source = .error (.noMatchingAlternative furthest trace)) :
    ∃ located c k failures, Source.tokens source = .ok located ∧
      IsDue ⟨located, source.utf8ByteSize⟩ c ∧
      FailsWith term c (.noMatchingAlternative furthest trace) ∧ Tried k c failures ∧ k ≤ limit ∧
      trace = failures.map Failure.line ∧ trace.length = 8 + 7 * k ∧
      (∀ f ∈ failures, f.error.IsMismatch ⟨located, source.utf8ByteSize⟩) ∧
      IsGreatest (Failure.offsets failures) furthest := by
  rcases Source.refused_of_ofSource failed with found | ⟨located, found, refused⟩
  · exact absurd found (Source.tokens_ne_choice source furthest trace)
  · rcases refused.failsWith_condition with ⟨checked, fails⟩
    rcases exists_isDue_of_condition fails with ⟨c, due, fails⟩
    rcases exists_tried fails with ⟨k, failures, furthest', tried, same, greatest⟩
    cases same
    have room : Source.HasRoom limit ⟨located, source.utf8ByteSize⟩ :=
      ⟨0, by rwa [Nat.zero_add]⟩
    have length : (failures.map Failure.line).length = 8 + 7 * k := by
      rw [List.length_map, tried.length_eq]
    exact ⟨located, c, k, failures, found, due, fails, tried, tried.le_of_hasRoom (due.hasRoom room),
      rfl, length, fun f present => due.isMismatch (tried.isMismatch f present), greatest⟩

theorem ofSource_trace_complete_nested :
    ∃ trace c failures,
      ofSource .boolean 1 "a && (1)" = .error (.noMatchingAlternative 8 trace) ∧
        Tried 1 c failures ∧ trace = failures.map Failure.line ∧
        IsGreatest (Failure.offsets failures) 8 := by
  have row : Source.tokens "a && (1)" =
      .ok [⟨.identifier "a", 0⟩, ⟨.connective .and, 2⟩, ⟨.openParen, 5⟩, ⟨.int 1, 6⟩,
        ⟨.closeParen, 7⟩] := rfl
  have refused : ∃ trace, ofSource .boolean 1 "a && (1)" =
      .error (.noMatchingAlternative 8 trace) ∧ trace.length = 15 := by
    rw [ofSource, Source.parse_eq_parseTokens row]
    exact ⟨_, rfl, rfl⟩
  rcases refused with ⟨trace, failed, lines⟩
  rcases ofSource_trace_complete failed with
    ⟨_, c, k, failures, -, -, -, tried, -, told, length, -, greatest⟩
  obtain rfl : k = 1 := by omega
  exact ⟨trace, c, failures, failed, tried, told, greatest⟩

end Expr
end Formula
