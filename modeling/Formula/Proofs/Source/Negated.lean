import Formula.Proofs.Rule.Sum
import Formula.Proofs.Source.Digits

/-! Whole numbers behind a minus sign. The limits of their width apply to the number with its sign,
and a number beyond them is blamed at the sign, unless its digits alone are too many for a token. -/

namespace Formula

attribute [local instance (high)] instPowNat

open Lexeme

namespace Width

theorem holds_neg_iff {width : Width} {k : Nat} :
    width.Holds (-(k : Int)) ↔ k ≤ 2 ^ (width.bits - 1) := by
  cases width with
  | int =>
    rw [holds_int_iff]
    simp only [bits]
    omega
  | long =>
    rw [holds_long_iff]
    simp only [bits]
    omega

theorem two_pow_le_greatestDigits (width : Width) : 2 ^ (width.bits - 1) ≤ width.greatestDigits := by
  cases width <;> decide

end Width

variable {width : Width} {blanks digits : List Char}

namespace Source

theorem utf8Size_of_isBlank {c : Char} (blank : isBlank c) : c.utf8Size = 1 := by
  simp only [isBlank, Bool.or_eq_true, beq_iff_eq] at blank
  obtain (((rfl | rfl) | rfl) | rfl) | rfl := blank <;> rfl

theorem tokensFrom_blanks (blank : ∀ c ∈ blanks, isBlank c) (offset : Nat) (tail : List Char) :
    tokensFrom offset 0 (blanks ++ tail) = tokensFrom (offset + blanks.length) 0 tail := by
  induction blanks generalizing offset with
  | nil => rfl
  | cons c blanks ih =>
    obtain ⟨first, others⟩ := List.forall_mem_cons.mp blank
    rw [List.cons_append, tokensFrom_cons_of_isBlank first, ih others, utf8Size_of_isBlank first,
      List.length_cons, Nat.add_assoc, Nat.add_comm 1]

def negatedText (width : Width) (blanks digits : List Char) : String :=
  String.ofList ('-' :: (blanks ++ (digits ++ width.mark)))

theorem tokens_negated (blank : ∀ c ∈ blanks, isBlank c) (present : digits ≠ [])
    (plain : ∀ c ∈ digits, c.isDigit) :
    tokens (negatedText width blanks digits) =
      if Nat.ofDigitChars 10 digits 0 ≤ width.greatestDigits then
        .ok [⟨.arithmetic .sub, 0⟩,
          ⟨.whole width (Nat.ofDigitChars 10 digits 0), 1 + blanks.length⟩]
      else
        .error (.literalTooLarge (String.ofList (digits ++ width.mark)) (1 + blanks.length)) := by
  have sign : front '-' ([] ++ (blanks ++ (digits ++ width.mark))) =
      .token 1 (.arithmetic .sub) := rfl
  have start := tokensFrom_cons_of_token sign 0
  rw [tokens, negatedText, String.toList_ofList]
  refine start.trans ?_
  rw [tokensFrom_blanks blank, tokensFrom_whole present plain]
  split <;> rfl

end Source

theorem Numeric.literal?_negated (width : Width) (k start : Nat) :
    (whole width).literal? true start (.whole width k) = some
      (if fits : width.Holds (-(k : Int)) then .ok ⟨_, fits⟩
      else .error (.literalTooLarge ("-" ++ (Token.whole width k).text) start)) := by
  have own : digits? width (.whole width k) = some k := digits?_eq_some_iff.mpr rfl
  rw [literal?, own, Option.map_some, Whole.ofInt?]
  simp only [signed, if_true]
  by_cases fits : width.Holds (-(k : Int))
  · simp only [dif_pos fits]
  · simp only [dif_neg fits]
    rfl

theorem Rule.sum_negated_eq_error {n : Numeric} {t : Token} {start : Nat} {e : ParseError}
    (failed : n.literal? true start t = some (.error e)) (offset : Nat) (rest : List Located)
    (stop : Nat) :
    sum n ⟨⟨.arithmetic .sub, start⟩ :: ⟨t, offset⟩ :: rest, stop⟩ = .error e ⟨rest, stop⟩ := by
  let c : Cursor := ⟨⟨.arithmetic .sub, start⟩ :: ⟨t, offset⟩ :: rest, stop⟩
  have factor : factorOver (sum n) c = .error e ⟨rest, stop⟩ := by
    simp only [c, factorOver_cons, literal_cons, failed]
  have product : productOver (sum n) c = .error e ⟨rest, stop⟩ := by
    rw [productOver, chain_eq_bind, bind_run, factor]
  change sum n c = _
  rw [sum_eq_sumOver, sumOver, chain_eq_bind, bind_run, product]

namespace Expr

open Source

variable {limit : Nat} (blank : ∀ c ∈ blanks, isBlank c) (present : digits ≠ [])
  (plain : ∀ c ∈ digits, c.isDigit)

include blank present plain

section Tokens

variable (small : Nat.ofDigitChars 10 digits 0 ≤ width.greatestDigits)

include small

theorem ofSource_negated_eq_complete :
    ofSource (.number (.whole width)) limit (negatedText width blanks digits) =
      complete (Rule.sum (.whole width))
        ⟨[⟨.arithmetic .sub, 0⟩, ⟨.whole width (Nat.ofDigitChars 10 digits 0), 1 + blanks.length⟩],
          (negatedText width blanks digits).utf8ByteSize⟩ := by
  have found := @tokens_negated width _ _ blank present plain
  rw [if_pos small] at found
  rw [ofSource, parse_eq_parseTokens found]
  cases width <;> rfl

theorem ofSource_negated_of_le (fits : Nat.ofDigitChars 10 digits 0 ≤ 2 ^ (width.bits - 1)) :
    ∃ v : Whole width, v.val = -(Nat.ofDigitChars 10 digits 0 : Int) ∧
      ofSource (.number (.whole width)) limit (negatedText width blanks digits) =
        .ok (.const v) := by
  have holds := Width.holds_neg_iff.mpr fits
  have literal := Numeric.literal?_negated width (Nat.ofDigitChars 10 digits 0) 0
  rw [dif_pos holds] at literal
  refine ⟨⟨_, holds⟩, rfl, ?_⟩
  rw [ofSource_negated_eq_complete blank present plain small]
  exact complete_sum_eq_ok_iff.mpr
    (.product (.factor (.negated (Numeric.literal?_eq_ok_iff.mp literal))))

theorem ofSource_negated_of_lt (beyond : 2 ^ (width.bits - 1) < Nat.ofDigitChars 10 digits 0) :
    ofSource (.number (.whole width)) limit (negatedText width blanks digits) =
      .error (.literalTooLarge
        ("-" ++ (Token.whole width (Nat.ofDigitChars 10 digits 0)).text) 0) := by
  have unfit := Width.holds_neg_iff.not.mpr (Nat.not_le.mpr beyond)
  have literal := Numeric.literal?_negated width (Nat.ofDigitChars 10 digits 0) 0
  rw [dif_neg unfit] at literal
  rw [ofSource_negated_eq_complete blank present plain small, complete,
    Rule.sum_negated_eq_error literal]

end Tokens

theorem ofSource_negated_of_greatestDigits_lt
    (large : width.greatestDigits < Nat.ofDigitChars 10 digits 0) :
    ofSource (.number (.whole width)) limit (negatedText width blanks digits) =
      .error (.literalTooLarge (String.ofList (digits ++ width.mark)) (1 + blanks.length)) := by
  have failed := @tokens_negated width _ _ blank present plain
  rw [if_neg (Nat.not_le.mpr large)] at failed
  rw [ofSource, parse_eq_error failed]

/-- A whole number behind a minus sign and blanks is read if its width holds it with the sign. If
not, it is too large from the sign on, and if its digits alone are too many for a token, from its
first digit on. -/
theorem ofSource_negated :
    (Nat.ofDigitChars 10 digits 0 ≤ 2 ^ (width.bits - 1) →
        ∃ v : Whole width, v.val = -(Nat.ofDigitChars 10 digits 0 : Int) ∧
          ofSource (.number (.whole width)) limit (negatedText width blanks digits) =
            .ok (.const v)) ∧
      (2 ^ (width.bits - 1) < Nat.ofDigitChars 10 digits 0 →
        Nat.ofDigitChars 10 digits 0 ≤ width.greatestDigits →
          ofSource (.number (.whole width)) limit (negatedText width blanks digits) =
            .error (.literalTooLarge
              ("-" ++ (Token.whole width (Nat.ofDigitChars 10 digits 0)).text) 0)) ∧
      (width.greatestDigits < Nat.ofDigitChars 10 digits 0 →
        ofSource (.number (.whole width)) limit (negatedText width blanks digits) =
          .error (.literalTooLarge (String.ofList (digits ++ width.mark)) (1 + blanks.length))) := by
  refine ⟨fun fits => ?_, fun beyond small => ?_, fun large => ?_⟩
  · have small := fits.trans width.two_pow_le_greatestDigits
    exact ofSource_negated_of_le blank present plain small fits
  · exact ofSource_negated_of_lt blank present plain small beyond
  · exact ofSource_negated_of_greatestDigits_lt blank present plain large

omit blank present plain

theorem ofSource_negated_limits :
    (∃ v : Whole .int, v.val = -2147483648 ∧
        ofSource (.number (.whole .int)) 0 "- \t2147483648" = .ok (.const v)) ∧
      ofSource (.number (.whole .long)) 0 "- \t9223372036854775809L" =
        .error (.literalTooLarge "-9223372036854775809L" 0) ∧
      ofSource (.number (.whole .int)) 0 "- \t9223372036854775809" =
        .error (.literalTooLarge "9223372036854775809" 3) := by
  have blank : ∀ c ∈ [' ', '\t'], isBlank c := by simp [isBlank]
  have least := @ofSource_negated .int [' ', '\t'] "2147483648".toList 0 blank (by simp) (by simp)
  have beyond (width : Width) := @ofSource_negated width [' ', '\t'] "9223372036854775809".toList 0
    blank (by simp) (by simp)
  exact ⟨least.1 (by decide), (beyond .long).2.1 (by decide) (by decide),
    (beyond .int).2.2 (by decide)⟩

/-- Digits of more than 64 bits are blamed on themselves, not on the sign before them. -/
theorem ofSource_negated_ne_at_sign :
    2 ^ (Width.int.bits - 1) < Nat.ofDigitChars 10 "9223372036854775808".toList 0 ∧
      ∀ literal, ofSource (.number (.whole .int)) defaultLimit "-9223372036854775808" ≠
        .error (.literalTooLarge literal 0) := by
  have failed := @ofSource_negated_of_greatestDigits_lt .int [] "9223372036854775808".toList
    defaultLimit nofun (by simp) (by simp) (by decide)
  refine ⟨by decide, fun literal same => ?_⟩
  have offsets := failed.symm.trans same
  cases offsets

end Expr

end Formula
