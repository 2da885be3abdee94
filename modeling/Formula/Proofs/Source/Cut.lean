import Mathlib.Data.String.Basic
import Formula.Proofs.Source.Spelling
import Formula.Proofs.Token.Local
import Formula.Rule

/-! A source that becomes tokens is made of blanks and of the pieces that are its tokens. -/

namespace Formula

open Lexeme

/-- A text that starts at `offset`, cut into blanks and the tokens at the front of what is left. -/
inductive Cut : Nat → List Char → List Located → Prop
  | nil {offset : Nat} : Cut offset [] []
  | blank {offset : Nat} {c : Char} {tail : List Char} {located : List Located} :
      isBlank c → Cut (offset + c.utf8Size) tail located → Cut offset (c :: tail) located
  | token {offset : Nat} {c : Char} {tail : List Char} {located : List Located} (piece : List Char)
      {t : Token} : front c (piece ++ tail) = .token (piece.length + 1) t →
      Cut (offset + String.utf8Len (c :: piece)) tail located →
      Cut offset (c :: (piece ++ tail)) (⟨t, offset⟩ :: located)

theorem isBlank_of_reading {c : Char} {rest : List Char}
    (found : (front c rest).reading = .ok none) : isBlank c := by
  obtain ⟨blank, -⟩ | ⟨-, same⟩ | ⟨-, same⟩ | same | same := front_cases c
  · exact blank
  · rw [same] at found
    unfold number at found
    simp only [bounded] at found
    repeat' split at found
    all_goals cases found
  · rw [same] at found
    cases found
  · rw [same] at found
    simp only [quoted] at found
    repeat' split at found
    all_goals cases found
  · rw [same] at found
    unfold symbol at found
    split at found <;> cases found

namespace Source

theorem tokensFrom_append (offset : Nat) (piece tail : List Char) :
    tokensFrom offset piece.length (piece ++ tail) =
      tokensFrom (offset + String.utf8Len piece) 0 tail := by
  induction piece generalizing offset with
  | nil => rfl
  | cons c piece ih =>
    rw [List.length_cons, List.cons_append, tokensFrom, ih, String.utf8Len_cons, Nat.add_assoc,
      Nat.add_comm c.utf8Size]

theorem tokensFrom_cons_of_isBlank {c : Char} (blank : isBlank c) (offset : Nat)
    (tail : List Char) :
    tokensFrom offset 0 (c :: tail) = tokensFrom (offset + c.utf8Size) 0 tail := by
  rw [tokensFrom, front, if_pos blank]
  rfl

theorem tokensFrom_cons_of_token {c : Char} {piece tail : List Char} {t : Token}
    (lexeme : front c (piece ++ tail) = .token (piece.length + 1) t) (offset : Nat) :
    tokensFrom offset 0 (c :: (piece ++ tail)) =
      (tokensFrom (offset + String.utf8Len (c :: piece)) 0 tail).map (⟨t, offset⟩ :: ·) := by
  have start : offset + c.utf8Size + String.utf8Len piece =
      offset + String.utf8Len (c :: piece) := by
    rw [String.utf8Len_cons, Nat.add_assoc, Nat.add_comm c.utf8Size]
  rw [tokensFrom, lexeme]
  simp only [Lexeme.token, Nat.add_sub_cancel, tokensFrom_append, start]
  cases tokensFrom (offset + String.utf8Len (c :: piece)) 0 tail <;> rfl

theorem cut_of_tokensFrom {offset : Nat} {text : List Char} {located : List Located}
    (found : tokensFrom offset 0 text = .ok located) : Cut offset text located := by
  -- A piece may be of any length, so the induction is on the length of the text.
  induction length : text.length using Nat.strongRecOn generalizing offset text located with
  | ind n ih =>
  cases text with
  | nil =>
    cases found
    exact .nil
  | cons c rest =>
    cases reading : (front c rest).reading with
    | error fault =>
      rw [tokensFrom] at found
      simp only [reading] at found
      cases found
    | ok token =>
      cases token with
      | none =>
        have blank := isBlank_of_reading reading
        rw [tokensFrom_cons_of_isBlank blank] at found
        rw [List.length_cons] at length
        exact .blank blank (ih rest.length (by omega) found rfl)
      | some t =>
        have lexeme : front c rest = .token (front c rest).length t := by
          rw [Lexeme.token, ← reading]
        obtain ⟨piece, tail, rfl, size⟩ := exists_piece_of_front lexeme
        rw [size] at lexeme
        rw [tokensFrom_cons_of_token lexeme] at found
        cases left : tokensFrom (offset + String.utf8Len (c :: piece)) 0 tail with
        | error e =>
          rw [left] at found
          cases found
        | ok located =>
          rw [left] at found
          cases found
          rw [List.length_cons, List.length_append] at length
          exact .token piece lexeme (ih tail.length (by omega) left rfl)

theorem tokensFrom_eq_ok_iff {offset : Nat} {text : List Char} {located : List Located} :
    tokensFrom offset 0 text = .ok located ↔ Cut offset text located := by
  refine ⟨cut_of_tokensFrom, fun cut => ?_⟩
  induction cut with
  | nil => rfl
  | blank blank cut ih => rw [tokensFrom_cons_of_isBlank blank, ih]
  | token piece lexeme cut ih =>
    rw [tokensFrom_cons_of_token lexeme, ih]
    rfl

end Source

theorem Spells.of_isBlank {c : Char} {tail : List Char} {ts : List Token} (spells : Spells tail ts)
    (blank : isBlank c) : Spells (c :: tail) ts := by
  intro offset
  rw [Source.tokensFrom_cons_of_isBlank blank]
  exact spells (offset + c.utf8Size)

theorem Spells.of_blanks {blanks tail : List Char} {ts : List Token} (spells : Spells tail ts)
    (blank : ∀ c ∈ blanks, isBlank c) : Spells (blanks ++ tail) ts := by
  induction blanks with
  | nil => exact spells
  | cons c blanks ih =>
    rw [List.forall_mem_cons] at blank
    exact (ih blank.2).of_isBlank blank.1

/-- The places at which a rule may stop: those of the tokens, and the end. -/
def Cursor.places (c : Cursor) : List Nat := c.tokens.map Located.offset ++ [c.stop]

def Cursor.Ascends (c : Cursor) : Prop := c.places.Pairwise (· < ·)

namespace Cut

variable {offset : Nat} {text tail : List Char} {located : List Located} {ts : List Token}

theorem le_of_mem_places (cut : Cut offset text located) :
    ∀ o ∈ (Cursor.mk located (offset + String.utf8Len text)).places, offset ≤ o := by
  induction cut with
  | nil => simp [Cursor.places]
  | @blank offset c tail located blank cut ih =>
    intro o present
    rw [String.utf8Len_cons, Nat.add_comm (String.utf8Len tail), ← Nat.add_assoc] at present
    exact Nat.le_trans (Nat.le_add_right _ _) (ih o present)
  | @token offset c tail located piece t lexeme cut ih =>
    intro o present
    rw [← List.cons_append, String.utf8Len_append, ← Nat.add_assoc] at present
    obtain rfl | present := List.mem_cons.mp present
    · exact Nat.le_refl _
    · exact Nat.le_trans (Nat.le_add_right _ _) (ih o present)

theorem ascends (cut : Cut offset text located) :
    (Cursor.mk located (offset + String.utf8Len text)).Ascends := by
  induction cut with
  | nil => simp [Cursor.Ascends, Cursor.places]
  | @blank offset c tail located blank cut ih =>
    rw [String.utf8Len_cons, Nat.add_comm (String.utf8Len tail), ← Nat.add_assoc]
    exact ih
  | @token offset c tail located piece t lexeme cut ih =>
    rw [← List.cons_append, String.utf8Len_append, ← Nat.add_assoc]
    refine List.pairwise_cons.mpr ⟨fun o present => ?_, ih⟩
    have size : 0 < String.utf8Len (c :: piece) := by
      rw [String.utf8Len_cons]
      exact Nat.add_pos_right _ c.utf8Size_pos
    exact Nat.lt_of_lt_of_le (Nat.lt_add_of_pos_right size) (cut.le_of_mem_places o present)

/-- A text that becomes tokens may stand before every break. -/
theorem spells_append (cut : Cut offset text located) (breaks : Breaks tail)
    (spells : Spells tail ts) : Spells (text ++ tail) (located.map Located.token ++ ts) := by
  induction cut with
  | nil => exact spells
  | blank blank cut ih => exact ih.of_isBlank blank
  | @token offset c rest located piece t lexeme cut ih =>
    -- The piece was read before nothing; the rest of the text keeps it from the new tail.
    rw [← List.append_nil (piece ++ rest)] at lexeme
    have within : piece.length + 1 ≤ (piece ++ rest).length + 1 := by
      rw [List.length_append]
      omega
    have again := front_append_of_breaks lexeme within breaks
    rw [List.append_assoc] at again
    rw [List.cons_append, List.append_assoc]
    exact ih.token piece again

end Cut

end Formula
