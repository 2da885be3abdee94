import Formula.Proofs.Text.Trim
import Formula.Proofs.Token.Pattern

/-! The pieces of a source that are tokens neither start nor end with white space. -/

namespace Formula

open Text

section Solid

variable {c : Char}

theorem Text.isTight_quoted (inner : List Char) :
    IsTight (String.ofList ('"' :: (inner ++ ['"']))) := by
  rw [IsTight, String.toList_ofList, ← List.cons_append, List.getLast?_concat]
  constructor
  · rintro c ⟨⟩
    decide
  · rintro c ⟨⟩
    decide

theorem not_isWhiteSpace_of_mem_paddedDigits {width n : Nat} (present : c ∈ paddedDigits width n) :
    isWhiteSpace c = false :=
  not_isWhiteSpace_of_isDigit (isDigit_of_mem_paddedDigits present)

theorem Timestamp.not_isWhiteSpace_of_mem_text {t : Timestamp} (fits : t.FitsForm)
    (present : c ∈ t.text.toList) : isWhiteSpace c = false := by
  rw [Timestamp.toList_text fits] at present
  simp only [List.mem_append, List.mem_cons, List.not_mem_nil, or_false] at present
  obtain digit | rfl | digit | rfl | digit | rfl | digit | rfl | digit | rfl | digit | rfl |
    digit | rfl := present
  all_goals first | exact not_isWhiteSpace_of_mem_paddedDigits digit | decide

theorem Lexeme.not_isWhiteSpace_of_isWordChar (inside : isWordChar c) : isWhiteSpace c = false := by
  rcases isWordChar_iff.mp inside with start | digit
  · rcases isWordStart_iff.mp start with (upper | lower) | rfl
    · have bounds := isUpper_iff_toNat.mp upper
      exact not_isWhiteSpace_of_toNat (by omega) (by omega)
    · have bounds := isLower_iff_toNat.mp lower
      exact not_isWhiteSpace_of_toNat (by omega) (by omega)
    · decide
  · exact not_isWhiteSpace_of_isDigit digit

end Solid

namespace Lexeme

theorem not_isWhiteSpace_of_mem_int {w : List Char} (isInt : w ∈ Pattern.int.language) :
    ∀ c ∈ w, isWhiteSpace c = false :=
  fun c present => not_isWhiteSpace_of_isDigit ((Pattern.mem_int_iff.mp isInt).2 c present)

/-- Of the tokens only texts contain white space, and these are quoted. -/
theorem Denotes.isTight {piece : List Char} {t : Token} (denotes : Denotes piece t) :
    IsTight (String.ofList piece) := by
  have solid {w : List Char} (solid : ∀ c ∈ w, isWhiteSpace c = false) : IsTight (.ofList w) :=
    isTight_of_forall (by rwa [String.toList_ofList])
  cases denotes with
  | string => exact isTight_quoted _
  | instant fits _ => exact solid fun c => Timestamp.not_isWhiteSpace_of_mem_text fits
  | double isInt isInt' =>
    apply solid
    rw [List.forall_mem_append, List.forall_mem_cons]
    exact ⟨not_isWhiteSpace_of_mem_int isInt, by decide, not_isWhiteSpace_of_mem_int isInt'⟩
  | long isInt isMark _ =>
    apply solid
    rw [List.forall_mem_append, List.forall_mem_singleton]
    refine ⟨not_isWhiteSpace_of_mem_int isInt, ?_⟩
    obtain rfl | rfl := isMark <;> decide
  | int isInt _ => exact solid (not_isWhiteSpace_of_mem_int isInt)
  | identifier written =>
    have inside := isWordChar_of_isWord (Pattern.mem_identifier_iff.mp written)
    exact solid fun c present => not_isWhiteSpace_of_isWordChar (inside c present)
  | boolean b =>
    have inside : ∀ c ∈ (toString b).toList, isWordChar c := by
      cases b <;> exact isWordChar_of_isWord rfl
    exact solid fun c present => not_isWhiteSpace_of_isWordChar (inside c present)
  | dot | openParen | closeParen => exact solid (by simp [isWhiteSpace, whiteSpaceRanges])
  | arithmetic op =>
    apply solid
    cases op <;> simp [Arithmetic.symbol, isWhiteSpace, whiteSpaceRanges]
  | relation op =>
    apply solid
    cases op <;> simp [Relation.symbol, isWhiteSpace, whiteSpaceRanges]
  | connective op =>
    apply solid
    cases op <;> simp [Connective.symbol, isWhiteSpace, whiteSpaceRanges]

end Lexeme

end Formula
