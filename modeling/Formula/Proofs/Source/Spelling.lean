import Formula.Proofs.Token.Lexeme
import Formula.Source.Tokens

/-! Texts that become a given row of tokens, wherever in a source they stand. -/

namespace Formula

open Lexeme

def Spells (text : List Char) (ts : List Token) : Prop :=
  ∀ offset, ∃ located, Source.tokensFrom offset 0 text = .ok located ∧
    located.map Located.token = ts

namespace Spells

variable {c : Char} {piece tail : List Char} {t : Token} {ts : List Token}

theorem tokensFrom_skip (piece tail : List Char) (offset : Nat) :
    ∃ offset', Source.tokensFrom offset piece.length (piece ++ tail) =
      Source.tokensFrom offset' 0 tail := by
  induction piece generalizing offset with
  | nil => exact ⟨offset, rfl⟩
  | cons c piece ih => exact ih (offset + c.utf8Size)

theorem nil : Spells [] [] := fun _ => ⟨[], rfl, rfl⟩

theorem blank (spells : Spells tail ts) : Spells (' ' :: tail) ts :=
  fun offset => spells (offset + ' '.utf8Size)

theorem token (piece : List Char)
    (lexeme : Lexeme.front c (piece ++ tail) = .token (piece.length + 1) t)
    (spells : Spells tail ts) : Spells (c :: piece ++ tail) (t :: ts) := by
  intro offset
  rcases tokensFrom_skip piece tail (offset + c.utf8Size) with ⟨offset', skipped⟩
  rcases spells offset' with ⟨located, found, rfl⟩
  refine ⟨⟨t, offset⟩ :: located, ?_, rfl⟩
  rw [List.cons_append, Source.tokensFrom, lexeme]
  simp only [Lexeme.token, Nat.add_sub_cancel, skipped, found]
  rfl

theorem number (piece : List Char) {digits : List Char} (present : digits ≠ [])
    (plain : ∀ c ∈ digits, c.isDigit)
    (lexeme : Lexeme.number (digits ++ piece ++ tail) = .token (digits ++ piece).length t)
    (spells : Spells tail ts) : Spells (digits ++ piece ++ tail) (t :: ts) := by
  rcases List.exists_cons_of_ne_nil present with ⟨c, digits, rfl⟩
  apply spells.token (digits ++ piece)
  rw [front_of_isDigit (plain c (by simp))]
  exact lexeme

theorem word (text : String) (isWord : isWord text.toList)
    (stop : ∀ c, tail.head? = some c → isWordChar c = false) (spells : Spells tail ts) :
    Spells (text.toList ++ tail) (wordToken text.toList :: ts) := by
  rcases exists_cons_of_isWord isWord with ⟨c, rest, shape, start⟩
  have lexeme := word_append (isWordChar_of_isWord isWord) stop
  rw [shape] at lexeme ⊢
  apply spells.token
  rw [front_of_isWordStart start]
  exact lexeme

theorem identifier {text : String} (written : IsIdentifier text)
    (stop : ∀ c, tail.head? = some c → isWordChar c = false) (spells : Spells tail ts) :
    Spells (text.toList ++ tail) (.identifier text :: ts) := by
  rw [← written.wordToken]
  exact word text written.1 stop spells

theorem dot (spells : Spells tail ts) : Spells ('.' :: tail) (.dot :: ts) :=
  spells.token [] rfl

theorem openParen (spells : Spells tail ts) : Spells ('(' :: tail) (.openParen :: ts) :=
  spells.token [] rfl

theorem closeParen (spells : Spells tail ts) : Spells (')' :: tail) (.closeParen :: ts) :=
  spells.token [] rfl

theorem minus (spells : Spells tail ts) : Spells ('-' :: tail) (.arithmetic .sub :: ts) :=
  spells.token [] rfl

theorem arithmetic (op : Arithmetic) (spells : Spells tail ts) :
    Spells (op.symbol.toList ++ ' ' :: tail) (.arithmetic op :: ts) := by
  cases op <;> exact spells.blank.token [] rfl

theorem relation (op : Relation) (spells : Spells tail ts) :
    Spells (op.symbol.toList ++ ' ' :: tail) (.relation op :: ts) := by
  cases op with
  | lt | gt => exact spells.blank.token [] rfl
  | eq | ne | le | ge => exact spells.blank.token ['='] rfl

theorem connective (op : Connective) (spells : Spells tail ts) :
    Spells (op.symbol.toList ++ ' ' :: tail) (.connective op :: ts) := by
  cases op with
  | and => exact spells.blank.token ['&'] rfl
  | or => exact spells.blank.token ['|'] rfl

theorem string (text : String) (spells : Spells tail ts) :
    Spells ((Text.literal text).toList ++ tail) (.string text :: ts) := by
  have shape : (Text.literal text).toList ++ tail =
      '"' :: (Text.encode text.toList ++ ['"']) ++ tail := by
    simp [Text.literal]
  rw [shape]
  apply spells.token
  have lexeme := quoted_encode text.toList tail
  rw [String.ofList_toList] at lexeme
  rw [List.append_assoc, List.length_append]
  exact lexeme

theorem instant {i : Instant} (written : i.IsWritten) (spells : Spells tail ts) :
    Spells (i.text.toList ++ tail) (.instant i :: ts) := by
  have lexeme := number_instant written tail
  rw [← Instant.length_text written] at lexeme
  have shape : i.text.toList = _ := Timestamp.toList_text written.fitsForm
  rw [shape] at lexeme ⊢
  exact spells.number _ paddedDigits_ne_nil (fun _ => isDigit_of_mem_paddedDigits) lexeme

section Numbers

variable {n : Nat}

theorem int (small : n ≤ greatestInt) (delimits : Delimits tail) (spells : Spells tail ts) :
    Spells (Nat.toDigits 10 n ++ tail) (.int n :: ts) := by
  have plain (c : Char) (present : c ∈ Nat.toDigits 10 n) : c.isDigit :=
    Nat.isDigit_of_mem_toDigits (by decide) (by decide) present
  have lexeme := number_int plain delimits (by rwa [Nat.ofDigitChars_ten_toDigits])
  rw [Nat.ofDigitChars_ten_toDigits] at lexeme
  have spelled := spells.number [] Nat.toDigits_ne_nil plain (by simpa using lexeme)
  simpa using spelled

theorem long (small : n ≤ greatestLong) (spells : Spells tail ts) :
    Spells (Nat.toDigits 10 n ++ 'L' :: tail) (.long n :: ts) := by
  have plain (c : Char) (present : c ∈ Nat.toDigits 10 n) : c.isDigit :=
    Nat.isDigit_of_mem_toDigits (by decide) (by decide) present
  have lexeme := number_long plain (by rwa [Nat.ofDigitChars_ten_toDigits]) tail
  rw [Nat.ofDigitChars_ten_toDigits] at lexeme
  have spelled := spells.number ['L'] Nat.toDigits_ne_nil plain (by simpa using lexeme)
  simpa using spelled

theorem double (m : Double.Magnitude) (delimits : Delimits tail) (spells : Spells tail ts) :
    Spells (m.shortest.pointed.toList ++ tail) (.double (.signed false m) :: ts) := by
  rcases m.shortest.exists_digits_of_pointed with
    ⟨whole, fraction, shape, present, present', plain, plain', k, positive, digits, places⟩
  have lexeme := number_double plain plain' present' delimits
  rw [m.ofDecimal_of_readsBack m.readsBack_shortest positive digits places] at lexeme
  rw [shape]
  have length : (whole ++ '.' :: fraction).length = whole.length + 1 + fraction.length := by
    simp only [List.length_append, List.length_cons]
    omega
  apply spells.number _ present plain
  rw [List.append_assoc, List.cons_append, lexeme, length]

end Numbers

end Spells

end Formula
