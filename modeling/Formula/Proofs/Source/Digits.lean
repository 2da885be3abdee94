import Formula.Proofs.Grammar
import Formula.Proofs.Source.Munch

/-! Literals of whole numbers at the end of a source. Their digits are measured by the scanner, which
knows no sign. -/

namespace Formula

open Lexeme

namespace Width

def mark : Width → List Char
  | .int => []
  | .long => ['L']

def greatestDigits : Width → Nat
  | .int => greatestInt
  | .long => greatestLong

end Width

namespace Source

variable {width : Width} {digits : List Char}

theorem front_of_whole (isInt : digits ∈ Pattern.int.language) {c : Char} {w : List Char}
    (shape : c :: w = digits ++ width.mark) :
    front c w =
      bounded (digits ++ width.mark).length width.greatestDigits (.whole width) digits := by
  cases width with
  | int =>
    rw [Width.mark, List.append_nil] at shape ⊢
    exact front_of_int isInt shape
  | long => exact front_of_long isInt (.inr rfl) shape

theorem tokensFrom_whole (present : digits ≠ []) (plain : ∀ c ∈ digits, c.isDigit) (offset : Nat) :
    tokensFrom offset 0 (digits ++ width.mark) =
      if Nat.ofDigitChars 10 digits 0 ≤ width.greatestDigits then
        .ok [⟨.whole width (Nat.ofDigitChars 10 digits 0), offset⟩]
      else .error (.literalTooLarge (String.ofList (digits ++ width.mark)) offset) := by
  have isInt := Pattern.mem_int_iff.mpr ⟨present, plain⟩
  obtain ⟨c, w, shape⟩ := List.exists_cons_of_ne_nil
    (List.append_ne_nil_of_left_ne_nil present width.mark)
  have found := front_of_whole isInt shape.symm
  rw [shape] at found ⊢
  unfold bounded at found
  split
  · rename_i small
    rw [if_pos small] at found
    have alone : front c (w ++ []) =
        .token (w.length + 1) (.whole width (Nat.ofDigitChars 10 digits 0)) := by
      rwa [List.append_nil]
    have tokens := tokensFrom_cons_of_token alone offset
    rw [List.append_nil] at tokens
    exact tokens
  · rename_i large
    rw [if_neg large] at found
    rw [tokensFrom_cons_of_fault found, List.take_length]
    rfl

end Source

end Formula
