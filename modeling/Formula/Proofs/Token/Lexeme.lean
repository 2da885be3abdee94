import Formula.Proofs.Timestamp
import Formula.Token.Lexeme

/-! The pieces at the front of a text that are literals, names or symbols. -/

namespace Formula

theorem takeWhile_append_eq {α : Type} {p : α → Bool} {front tail : List α}
    (all : ∀ a ∈ front, p a) (stop : ∀ a, tail.head? = some a → p a = false) :
    (front ++ tail).takeWhile p = front := by
  rw [List.takeWhile_append_of_pos all]
  cases tail with
  | nil => simp
  | cons a tail => simp [stop a rfl]

theorem dropWhile_append_eq {α : Type} {p : α → Bool} {front tail : List α}
    (all : ∀ a ∈ front, p a) (stop : ∀ a, tail.head? = some a → p a = false) :
    (front ++ tail).dropWhile p = tail := by
  rw [List.dropWhile_append_of_pos all]
  cases tail with
  | nil => rfl
  | cons a tail => simp [stop a rfl]

def Delimits (tail : List Char) : Prop := ∀ c, tail.head? = some c → c = ' ' ∨ c = ')'

theorem delimits_nil : Delimits [] := by
  intro c next
  cases next

theorem delimits_blank (tail : List Char) : Delimits (' ' :: tail) := by
  intro c next
  cases next
  exact .inl rfl

theorem delimits_closeParen (tail : List Char) : Delimits (')' :: tail) := by
  intro c next
  cases next
  exact .inr rfl

section Digits

variable {digits fraction tail : List Char}

theorem Timestamp.eq_of_readNumber_append {width n : Nat} {rest : List Char}
    (stop : ∀ c, tail.head? = some c → c.isDigit = false)
    (found : readNumber width (digits ++ tail) = some (n, rest)) :
    width ≤ digits.length ∧ rest = digits.drop width ++ tail := by
  simp only [readNumber] at found
  split at found
  · rename_i number
    cases found
    have long : width ≤ digits.length := by
      apply Nat.le_of_not_lt
      intro short
      cases tail with
      | nil =>
        simp only [List.append_nil, List.length_take] at number
        omega
      | cons c tail =>
        have present : c ∈ (digits ++ c :: tail).take width := by
          obtain ⟨more, left⟩ := Nat.exists_eq_add_one.2 (Nat.sub_pos_of_lt short)
          rw [List.take_append, left]
          simp
        have digit := List.all_eq_true.1 number.2 c present
        rw [stop c rfl] at digit
        cases digit
    exact ⟨long, List.drop_append_of_le_length long⟩
  · cases found

theorem Timestamp.read_eq_none (plain : ∀ c ∈ digits, c.isDigit)
    (stop : ∀ c, tail.head? = some c → c.isDigit = false ∧ c ≠ '-') :
    Timestamp.read (digits ++ tail) = none := by
  have dash (left : List Char) (plain : ∀ c ∈ left, c.isDigit) :
      readMark '-' (left ++ tail) = none := by
    cases left with
    | nil =>
      cases tail with
      | nil => rfl
      | cons c tail => exact if_neg (stop c rfl).2
    | cons c left =>
      have digit := plain c (by simp)
      apply if_neg
      intro same
      subst same
      cases digit
  simp only [read, Option.bind_eq_bind]
  cases found : readNumber 4 (digits ++ tail) with
  | none => rfl
  | some year =>
    have shape := (eq_of_readNumber_append (fun c next => (stop c next).1) found).2
    have none := dash (digits.drop 4) fun c present => plain c (List.mem_of_mem_drop present)
    simp [shape, none]

theorem Delimits.not_isDigit (delimits : Delimits tail) {c : Char} (next : tail.head? = some c) :
    c.isDigit = false ∧ c ≠ '-' := by
  rcases delimits c next with rfl | rfl <;> decide

end Digits

namespace Lexeme

section Numbers

variable {digits fraction tail : List Char}

theorem number_int (plain : ∀ c ∈ digits, c.isDigit) (delimits : Delimits tail)
    (small : Nat.ofDigitChars 10 digits 0 ≤ greatestInt) :
    number (digits ++ tail) = .token digits.length (.int (Nat.ofDigitChars 10 digits 0)) := by
  have stop (c : Char) (next : tail.head? = some c) := delimits.not_isDigit next
  unfold number
  rw [Timestamp.read_eq_none plain stop]
  simp only [takeWhile_append_eq plain fun c next => (stop c next).1,
    dropWhile_append_eq plain fun c next => (stop c next).1, bounded, if_pos small]
  cases tail with
  | nil => rfl
  | cons c tail =>
    rcases delimits c rfl with rfl | rfl
    · rfl
    · rfl

theorem number_long (plain : ∀ c ∈ digits, c.isDigit)
    (small : Nat.ofDigitChars 10 digits 0 ≤ greatestLong) (tail : List Char) :
    number (digits ++ 'L' :: tail) =
      .token (digits.length + 1) (.long (Nat.ofDigitChars 10 digits 0)) := by
  have stop (c : Char) (next : ('L' :: tail).head? = some c) : c.isDigit = false ∧ c ≠ '-' := by
    cases next
    decide
  unfold number
  rw [Timestamp.read_eq_none plain stop]
  simp only [takeWhile_append_eq plain fun c next => (stop c next).1,
    dropWhile_append_eq plain fun c next => (stop c next).1, bounded, if_pos small]
  rfl

theorem number_double (plain : ∀ c ∈ digits, c.isDigit) (plain' : ∀ c ∈ fraction, c.isDigit)
    (present : fraction ≠ []) (delimits : Delimits tail) :
    number (digits ++ '.' :: (fraction ++ tail)) =
      .token (digits.length + 1 + fraction.length)
        (.double (.ofDecimal (.ofDigits digits fraction))) := by
  have stop (c : Char) (next : ('.' :: (fraction ++ tail)).head? = some c) :
      c.isDigit = false ∧ c ≠ '-' := by
    cases next
    decide
  unfold number
  rw [Timestamp.read_eq_none plain stop]
  simp only [takeWhile_append_eq plain fun c next => (stop c next).1,
    dropWhile_append_eq plain fun c next => (stop c next).1,
    takeWhile_append_eq plain' fun c next => (delimits.not_isDigit next).1]

theorem number_instant {i : Instant} (written : i.IsWritten) (tail : List Char) :
    number (i.text.toList ++ tail) = .token Timestamp.width (.instant i) := by
  unfold number
  rw [Instant.read_text written]
  simp only [Instant.check_timestamp written]

end Numbers

section Words

def isWord : List Char → Bool
  | [] => false
  | c :: rest => isWordStart c && rest.all isWordChar

/-- A word other than the literals `true` and `false`. -/
def IsIdentifier (text : String) : Prop :=
  isWord text.toList ∧ text ≠ "true" ∧ text ≠ "false"

instance (text : String) : Decidable (IsIdentifier text) := inferInstanceAs (Decidable (_ ∧ _))

variable {piece tail : List Char}

theorem word_append (all : ∀ c ∈ piece, isWordChar c)
    (stop : ∀ c, tail.head? = some c → isWordChar c = false) :
    word (piece ++ tail) = .token piece.length (wordToken piece) := by
  simp only [word, takeWhile_append_eq all stop]

theorem isUpper_iff_toNat {c : Char} : c.isUpper ↔ 65 ≤ c.toNat ∧ c.toNat ≤ 90 :=
  decide_eq_true_iff

theorem isLower_iff_toNat {c : Char} : c.isLower ↔ 97 ≤ c.toNat ∧ c.toNat ≤ 122 := by
  have bounds : c.isLower = (decide (97 ≤ c.toNat) && decide (c.toNat ≤ 122)) := rfl
  rw [bounds, Bool.and_eq_true, decide_eq_true_iff, decide_eq_true_iff]

theorem isWordStart_iff {c : Char} : isWordStart c ↔ (c.isUpper ∨ c.isLower) ∨ c = '_' := by
  have classes : isWordStart c = (c.isUpper || c.isLower || c == '_') := rfl
  rw [classes, Bool.or_eq_true, Bool.or_eq_true, beq_iff_eq]

theorem isWordChar_iff {c : Char} : isWordChar c ↔ isWordStart c ∨ c.isDigit := by
  have classes : isWordChar c = (c.isUpper || c.isLower || c.isDigit || c == '_') := rfl
  rw [classes, isWordStart_iff, Bool.or_eq_true, Bool.or_eq_true, Bool.or_eq_true, beq_iff_eq,
    or_right_comm]

theorem isWordChar_of_isWordStart {c : Char} (start : isWordStart c) : isWordChar c :=
  isWordChar_iff.mpr (.inl start)

theorem not_isDigit_of_isWordStart {c : Char} (start : isWordStart c) : c.isDigit = false := by
  apply Bool.eq_false_iff.mpr
  intro digit
  have bounds := Char.isDigit_iff_toNat.mp digit
  simp only [Char.reduceToNat] at bounds
  rcases isWordStart_iff.mp start with (upper | lower) | rfl
  · have letter := isUpper_iff_toNat.mp upper
    omega
  · have letter := isLower_iff_toNat.mp lower
    omega
  · cases digit

theorem exists_cons_of_isWord (isWord : isWord piece) :
    ∃ c rest, piece = c :: rest ∧ isWordStart c := by
  cases piece with
  | nil => cases isWord
  | cons c rest => exact ⟨c, rest, rfl, (Bool.and_eq_true_iff.mp isWord).1⟩

theorem isWordChar_of_isWord (isWord : isWord piece) : ∀ c ∈ piece, isWordChar c := by
  cases piece with
  | nil => cases isWord
  | cons c rest =>
    rcases Bool.and_eq_true_iff.mp isWord with ⟨start, all⟩
    simp only [List.forall_mem_cons]
    exact ⟨isWordChar_of_isWordStart start, List.all_eq_true.1 all⟩

theorem IsIdentifier.wordToken {text : String} (identifier : IsIdentifier text) :
    wordToken text.toList = .identifier text := by
  rcases identifier with ⟨-, notTrue, notFalse⟩
  rw [Lexeme.wordToken, if_neg (mt String.toList_inj.1 notTrue),
    if_neg (mt String.toList_inj.1 notFalse), String.ofList_toList]

end Words

section Quotes

theorem quotedBody_encodeChar (c : Char) (tail : List Char) :
    quotedBody (Text.encodeChar c ++ tail) =
      (Text.encodeChar c ++ (quotedBody tail).1, (quotedBody tail).2) := by
  cases letter : Text.escapeLetter? c with
  | some l =>
    have plain : l ≠ '\n' := by
      intro same
      subst same
      have back := Text.escaped?_of_escapeLetter? letter
      cases back
    simp only [Text.encodeChar, letter, List.cons_append, List.nil_append]
    rw [quotedBody]
    exact plain
  | none =>
    have plain := Text.ne_backslash_of_escapeLetter? letter
    have open' : c ≠ '"' := by
      intro same
      subst same
      cases letter
    simp only [Text.encodeChar, letter, List.cons_append, List.nil_append]
    rw [quotedBody] <;> simp_all

theorem quotedBody_encode (text tail : List Char) :
    quotedBody (Text.encode text ++ '"' :: tail) = (Text.encode text, true) := by
  induction text with
  | nil => rfl
  | cons c text ih =>
    have split : Text.encode (c :: text) = Text.encodeChar c ++ Text.encode text :=
      List.flatMap_cons
    calc
      quotedBody (Text.encode (c :: text) ++ '"' :: tail) =
          quotedBody (Text.encodeChar c ++ (Text.encode text ++ '"' :: tail)) := by
        rw [split, List.append_assoc]
      _ = (Text.encodeChar c ++ Text.encode text, true) := by rw [quotedBody_encodeChar, ih]
      _ = (Text.encode (c :: text), true) := by rw [split]

theorem quoted_encode (text tail : List Char) :
    quoted (Text.encode text ++ '"' :: tail) =
      .token ((Text.encode text).length + 2) (.string (String.ofList text)) := by
  simp only [quoted, quotedBody_encode, Text.decode_encode, if_true]

end Quotes

section Fronts

variable {c : Char}

theorem front_of_isDigit (digit : c.isDigit) (rest : List Char) :
    front c rest = number (c :: rest) := by
  have blank : isBlank c = false := by
    apply Bool.eq_false_iff.mpr
    intro blank
    simp only [isBlank, Bool.or_eq_true, beq_iff_eq] at blank
    rcases blank with (((rfl | rfl) | rfl) | rfl) | rfl <;> cases digit
  simp [front, blank, digit]

theorem front_of_isWordStart (start : isWordStart c) (rest : List Char) :
    front c rest = word (c :: rest) := by
  have blank : isBlank c = false := by
    apply Bool.eq_false_iff.mpr
    intro blank
    simp only [isBlank, Bool.or_eq_true, beq_iff_eq] at blank
    rcases blank with (((rfl | rfl) | rfl) | rfl) | rfl <;> cases start
  have digit := not_isDigit_of_isWordStart start
  simp [front, blank, digit, start]

end Fronts

end Lexeme

end Formula
