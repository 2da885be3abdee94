import Formula.Proofs.Source.Digits
import Formula.Proofs.Value.ReadBack

/-! Whole numbers without a suffix are read in the smallest width that holds them. Their digits are
measured before their sign is known, so the least number of all is no number without its suffix. -/

namespace Formula

def Whole.smallest (n : Whole .long) : Value :=
  if fits : Width.int.Holds n.val then ⟨.int, ⟨n.val, fits⟩⟩ else ⟨.long, n⟩

namespace Source

variable {width : Width} {n : Whole width}

theorem exists_tokens_whole (small : n.val.natAbs ≤ Lexeme.greatestInt) :
    ∃ located, tokens n.text = .ok located ∧ located.map Located.token =
      if n.val < 0 then [.arithmetic .sub, .int n.val.natAbs] else [.int n.val.natAbs] := by
  have digits := Spells.nil.int small delimits_nil
  have spelled := digits.signed ((Numeric.whole width).negative n)
  rw [← n.toList_text, List.append_nil] at spelled
  simp only [Numeric.negative, decide_eq_true_eq, List.append_nil] at spelled
  exact spelled 0

theorem exists_tokens_whole_eq_tooLarge (large : Lexeme.greatestInt < n.val.natAbs) :
    ∃ digits offset, tokens n.text = .error (.literalTooLarge digits offset) := by
  have plain (c : Char) (present : c ∈ Nat.toDigits 10 n.val.natAbs) : c.isDigit :=
    Nat.isDigit_of_mem_toDigits (by decide) (by decide) present
  rw [← Nat.ofDigitChars_ten_toDigits (n := n.val.natAbs)] at large
  have large : Width.int.greatestDigits < _ := large
  have failed (offset : Nat) := @tokensFrom_whole .int _ Nat.toDigits_ne_nil plain offset
  simp only [Width.mark, List.append_nil, if_neg (Nat.not_le.mpr large)] at failed
  rw [tokens, n.toList_text]
  split
  · have sign : Lexeme.front '-' ([] ++ Nat.toDigits 10 n.val.natAbs) =
        .token 1 (.arithmetic .sub) := rfl
    have start := tokensFrom_cons_of_token sign 0
    exact ⟨_, 1, start.trans (congrArg (Except.map _) (failed 1))⟩
  · exact ⟨_, 0, failed 0⟩

end Source

namespace Value

theorem ofWhole?_eq_smallest (n : Whole .long) : ofWhole? n.val = some n.smallest := by
  unfold ofWhole? Whole.smallest Whole.ofInt?
  by_cases fits : Width.int.Holds n.val
  · simp [fits]
  · simp [fits, n.fits]

theorem ofText_text_of_le {n : Whole .long} (small : n.val.natAbs ≤ Lexeme.greatestInt) :
    ofText n.text = n.smallest := by
  obtain ⟨located, found, row⟩ := Source.exists_tokens_whole small
  rw [ofText_of_tokens found, row]
  split
  · have value : -(n.val.natAbs : Int) = n.val := by omega
    rw [ofTokens?, value, ofWhole?_eq_smallest]
    rfl
  · have value : (n.val.natAbs : Int) = n.val := by omega
    rw [ofTokens?, value, ofWhole?_eq_smallest]
    rfl

theorem ofText_text_of_lt {n : Whole .long} (large : Lexeme.greatestInt < n.val.natAbs) :
    ofText n.text = ⟨.string, n.text⟩ := by
  obtain ⟨digits, offset, failed⟩ := Source.exists_tokens_whole_eq_tooLarge large
  rw [ofText, failed]

/-- The text of a whole number is read as the number in the smallest width that holds it, except that
the least number of all is a text. -/
theorem ofText_text_of_long (n : Whole .long) :
    ofText n.text = if n.val = Width.long.least then ⟨.string, n.text⟩ else n.smallest := by
  have bounds := (Width.holds_long_iff _).mp n.fits
  have least : Width.long.least = -9223372036854775808 := rfl
  have greatest : Lexeme.greatestInt = 9223372036854775807 := rfl
  split
  · exact ofText_text_of_lt (by omega)
  · exact ofText_text_of_le (by omega)

/-- Behind its sign the least number has more than the greatest digits. -/
theorem ofText_text_least_ne_smallest :
    (⟨Width.long.least, by decide⟩ : Whole .long).text = "-9223372036854775808" ∧
      ofText "-9223372036854775808" ≠
        (⟨Width.long.least, by decide⟩ : Whole .long).smallest := by
  have text : (⟨Width.long.least, by decide⟩ : Whole .long).text = "-9223372036854775808" := by
    decide
  refine ⟨text, ?_⟩
  rw [← text, ofText_text_of_lt (by decide)]
  exact fun same => absurd (congrArg kind same) (by decide)

end Value

end Formula
