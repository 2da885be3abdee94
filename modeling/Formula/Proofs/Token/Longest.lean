import Mathlib.Data.List.TakeWhile
import Formula.Proofs.Token.Reads

/-! The piece at the front of a text is the longest one that a pattern matches. -/

namespace Formula

namespace Lexeme

variable {text tail rest w piece inner : List Char} {c : Char} {t : Token} {f : Fault} {n : Nat}

section Fronts

/-- The lexeme is a piece of the text, no shorter than the other piece. -/
def Covers (w text : List Char) (lexeme : Lexeme) : Prop :=
  Reads text lexeme ∧ w.length ≤ lexeme.length

theorem covers_number {digits behind : List Char} (isInt : digits ∈ Pattern.int.language)
    (shape : c :: w = digits ++ behind)
    (bound : (c :: w).length ≤ (number (c :: w ++ tail)).length) :
    Covers (c :: w) (c :: w ++ tail) (front c (w ++ tail)) := by
  have digit := isDigit_of_digits isInt shape
  rw [front_of_isDigit digit]
  exact ⟨reads_number digit _, bound⟩

theorem covers_word (isWord : isWord (c :: w)) :
    Covers (c :: w) (c :: w ++ tail) (front c (w ++ tail)) := by
  have start := (Bool.and_eq_true_iff.mp isWord).1
  rw [front_of_isWordStart start]
  exact ⟨reads_word start _, length_le_word (isWordChar_of_isWord isWord) tail⟩

theorem covers_quoted (present : inner ∈ Pattern.body) :
    Covers ('"' :: (inner ++ ['"'])) ('"' :: (inner ++ ['"']) ++ tail)
      (front '"' (inner ++ ['"'] ++ tail)) := by
  rw [List.cons_append, List.append_assoc, List.singleton_append]
  refine ⟨reads_quoted_of_mem_body present tail, ?_⟩
  rw [show front '"' (inner ++ '"' :: tail) = quoted (inner ++ '"' :: tail) from rfl,
    quoted_of_mem_body present]
  split <;> simp [token, fault]

theorem covers_symbol (same : front c (w ++ tail) = symbol (c :: w ++ tail))
    (found : ∃ n t, symbol (c :: w ++ tail) = .token n t ∧ (c :: w).length ≤ n) :
    Covers (c :: w) (c :: w ++ tail) (front c (w ++ tail)) := by
  obtain ⟨n, t, found, bound⟩ := found
  rw [same]
  obtain reads | failed := reads_symbol (c :: w ++ tail)
  · exact ⟨reads, by rw [found]; exact bound⟩
  · rw [found] at failed
    cases failed

theorem covers_of_isMatched (other : isBlank c = false) (matched : IsMatched (c :: w))
    (tail : List Char) : Covers (c :: w) (c :: w ++ tail) (front c (w ++ tail)) := by
  obtain ⟨p, matched⟩ := matched
  -- The pattern settles the first character, and this alone how the front is read.
  cases p with
  | instant =>
    obtain ⟨t, fits, form⟩ := Pattern.mem_instant_iff.mp matched
    refine covers_number (mem_int_paddedDigits ..) (form.trans (Timestamp.toList_text fits)) ?_
    rw [form, number_of_instant fits, length_dated, Timestamp.length_text fits]
  | double =>
    obtain ⟨whole, isInt, fraction, isInt', shape⟩ := Pattern.mem_double_iff.mp matched
    exact covers_number isInt shape (shape ▸ length_le_number_of_double isInt isInt' tail)
  | long =>
    obtain ⟨digits, mark, isInt, isMark, shape⟩ := Pattern.mem_long_iff.mp matched
    exact covers_number isInt shape (shape ▸ length_le_number_of_long isInt isMark tail)
  | int =>
    refine covers_number matched (List.append_nil _).symm ?_
    exact length_le_number matched (List.prefix_append _ _)
  | string =>
    obtain ⟨inner, present, shape⟩ := Pattern.mem_string_iff.mp matched
    cases shape
    exact covers_quoted present
  | boolean b => cases b <;> cases matched <;> exact covers_word rfl
  | identifier => exact covers_word (Pattern.mem_identifier_iff.mp matched)
  | dot | openParen | closeParen =>
    cases matched
    exact covers_symbol rfl ⟨1, _, rfl, Nat.le_refl _⟩
  | arithmetic op =>
    cases op <;> cases matched <;> exact covers_symbol rfl ⟨1, _, rfl, Nat.le_refl _⟩
  | relation op =>
    have found := exists_symbol_relation op tail
    cases op <;> cases matched <;> exact covers_symbol rfl found
  | connective op =>
    cases op <;> cases matched <;> exact covers_symbol rfl ⟨2, _, rfl, Nat.le_refl _⟩
  | blank =>
    have blank := (Pattern.mem_many_iff.mp matched).2 c (List.mem_cons_self ..)
    rw [other] at blank
    cases blank

theorem IsMatched.exists_cons (matched : IsMatched w) : ∃ c w', w = c :: w' := by
  apply List.exists_cons_of_ne_nil
  rintro rfl
  obtain ⟨p, matched⟩ := matched
  cases p with
  | instant =>
    obtain ⟨t, fits, form⟩ := Pattern.mem_instant_iff.mp matched
    have length := Timestamp.length_text fits
    rw [← form] at length
    cases length
  | double =>
    obtain ⟨whole, -, fraction, -, shape⟩ := Pattern.mem_double_iff.mp matched
    simp at shape
  | long =>
    obtain ⟨digits, mark, -, -, shape⟩ := Pattern.mem_long_iff.mp matched
    simp at shape
  | int => exact (Pattern.mem_int_iff.mp matched).1 rfl
  | string =>
    obtain ⟨inner, -, shape⟩ := Pattern.mem_string_iff.mp matched
    cases shape
  | boolean b => cases b <;> cases matched
  | identifier => cases Pattern.mem_identifier_iff.mp matched
  | dot | openParen | closeParen => cases matched
  | arithmetic op | relation op | connective op => cases op <;> cases matched
  | blank => exact (Pattern.mem_many_iff.mp matched).1 rfl

/-- The front of a text is its longest piece that a pattern matches, if there is one. -/
theorem front_spec (other : isBlank c = false) (rest : List Char) :
    (∃ piece, IsLongest piece (c :: rest) ∧ Accounts piece (front c rest)) ∨
      (∀ w, w <+: c :: rest → ¬ IsMatched w) ∧
        ∃ n, front c rest = .fault (n + 1) .unrecognized := by
  have covers {w : List Char} (within : w <+: c :: rest) (matched : IsMatched w) :
      Covers w (c :: rest) (front c rest) := by
    obtain ⟨d, w, rfl⟩ := matched.exists_cons
    obtain ⟨tail, shape⟩ := within
    cases shape
    exact covers_of_isMatched other matched tail
  by_cases some : ∃ w, w <+: c :: rest ∧ IsMatched w
  · obtain ⟨w, within, matched⟩ := some
    obtain ⟨piece, tail, shape, accounts⟩ := (covers within matched).1
    refine .inl ⟨piece, ⟨⟨tail, shape.symm⟩, accounts.isMatched, ?_⟩, accounts⟩
    intro w within matched
    rw [← accounts.length_eq]
    exact (covers within matched).2
  · have none : ∀ w, w <+: c :: rest → ¬ IsMatched w :=
      fun w within matched => some ⟨w, within, matched⟩
    refine .inr ⟨none, (reads_front other rest).resolve_left fun reads => ?_⟩
    obtain ⟨piece, tail, shape, accounts⟩ := reads
    exact none piece ⟨tail, shape.symm⟩ accounts.isMatched

end Fronts

section Alone

variable {digits behind : List Char}

theorem head?_nil {P : Char → Prop} (c : Char) (next : ([] : List Char).head? = some c) : P c := by
  cases next

theorem front_of_digits (isInt : digits ∈ Pattern.int.language) (starts : piece = digits ++ behind)
    (shape : c :: w = piece) : front c w = number piece := by
  rw [front_of_isDigit (isDigit_of_digits isInt (shape.trans starts)), shape]

theorem front_of_instant {t : Timestamp} (fits : t.FitsForm) (shape : c :: w = t.text.toList) :
    front c w = dated t := by
  rw [front_of_digits (mem_int_paddedDigits ..) (Timestamp.toList_text fits) shape,
    ← number_of_instant fits [], List.append_nil]

theorem front_of_int (isInt : digits ∈ Pattern.int.language) (shape : c :: w = digits) :
    front c w = bounded digits.length greatestInt .int digits := by
  rw [front_of_digits isInt (List.append_nil _).symm shape]
  have alone : number (digits ++ []) = undated digits [] :=
    number_of_digits (Pattern.mem_int_iff.mp isInt).2 head?_nil
  rwa [List.append_nil] at alone

theorem front_of_long (isInt : digits ∈ Pattern.int.language) {mark : Char}
    (isMark : mark = 'l' ∨ mark = 'L') (shape : c :: w = digits ++ [mark]) :
    front c w = bounded (digits ++ [mark]).length greatestLong .long digits := by
  rw [front_of_digits isInt rfl shape, number_of_long isInt isMark, List.length_append,
    List.length_singleton]

theorem Denotes.front_eq (denotes : Denotes (c :: w) t) :
    front c w = .token (c :: w).length t := by
  generalize shape : c :: w = piece at denotes ⊢
  cases denotes with
  | @instant stamp fits exists' =>
    rw [front_of_instant fits shape, dated, Timestamp.length_text fits,
      (Timestamp.check_eq_ok_iff fits.millisecond).mpr ⟨exists', rfl⟩]
  | @double whole fraction isInt isInt' =>
    have alone := number_of_double isInt isInt' []
    obtain ⟨-, plain⟩ := Pattern.mem_int_iff.mp isInt'
    rw [List.append_nil, List.takeWhile_eq_self_iff.mpr plain] at alone
    rw [front_of_digits isInt rfl shape, alone, List.length_append, List.length_cons]
    congr 1
    omega
  | long isInt isMark small => rw [front_of_long isInt isMark shape, bounded, if_pos small]
  | int isInt small => rw [front_of_int isInt shape, bounded, if_pos small]
  | string present unescapes =>
    cases shape
    rw [show front '"' _ = quoted _ from rfl, quoted_of_mem_body present,
      decode_eq_some_iff.mpr unescapes]
    simp
  | boolean b => cases b <;> cases shape <;> rfl
  | identifier written other other' =>
    have isWord := Pattern.mem_identifier_iff.mp written
    rw [← shape] at isWord other other' ⊢
    have alone : word (c :: w ++ []) = .token (c :: w).length (wordToken (c :: w)) :=
      word_append (isWordChar_of_isWord isWord) head?_nil
    rw [List.append_nil] at alone
    rw [front_of_isWordStart (Bool.and_eq_true_iff.mp isWord).1, alone, wordToken, if_neg other,
      if_neg other']
  | dot | openParen | closeParen =>
    cases shape
    rfl
  | arithmetic op | relation op | connective op => cases op <;> cases shape <;> rfl

theorem Rejected.front_eq (rejected : Rejected (c :: w) f) :
    front c w = .fault (c :: w).length f := by
  generalize shape : c :: w = piece at rejected ⊢
  cases rejected with
  | @escape inner present unreadable =>
    cases shape
    rw [show front '"' _ = quoted _ from rfl, quoted_of_mem_body present]
    cases read : Text.decode inner with
    | some value => exact absurd (decode_eq_some_iff.mp read) (unreadable value)
    | none => simp
  | long isInt isMark large =>
    rw [front_of_long isInt isMark shape, bounded, if_neg (Nat.not_le.mpr large)]
  | int isInt large => rw [front_of_int isInt shape, bounded, if_neg (Nat.not_le.mpr large)]
  | date fits absent checked =>
    rw [front_of_instant fits shape, dated, Timestamp.length_text fits, checked]

theorem IsLongest.unique (longest : IsLongest piece text) (longest' : IsLongest w text) :
    piece = w := by
  have length : piece.length = w.length :=
    Nat.le_antisymm (longest'.longest _ longest.front longest.isMatched)
      (longest.longest _ longest'.front longest'.isMatched)
  exact (List.prefix_of_prefix_length_le longest.front longest'.front length.le).eq_of_length length

theorem IsLongest.of_append (longest : IsLongest piece (piece ++ (rest ++ tail))) :
    IsLongest piece (piece ++ rest) := by
  refine ⟨List.prefix_append _ _, longest.isMatched, fun w within matched => ?_⟩
  apply longest.longest w _ matched
  rw [← List.append_assoc]
  exact within.trans (List.prefix_append _ _)

theorem not_isBlank_of_front (found : front c rest = .token n t) : isBlank c = false := by
  apply Bool.eq_false_iff.mpr
  intro blank
  rw [front, if_pos blank] at found
  cases found

theorem token_ne_fault {m : Nat} : token n t ≠ fault m f :=
  fun same => nomatch congrArg Lexeme.reading same

theorem front_eq_token_iff :
    front c (w ++ tail) = .token (c :: w).length t ↔
      IsLongest (c :: w) (c :: w ++ tail) ∧ Denotes (c :: w) t := by
  constructor
  · intro found
    obtain ⟨piece, longest, read⟩ | ⟨-, n, failed⟩ :=
      front_spec (not_isBlank_of_front found) (w ++ tail)
    · obtain ⟨t', found', denotes⟩ | ⟨f, failed, -⟩ := read
      · rw [found] at found'
        have length : (c :: w).length = piece.length := congrArg Lexeme.length found'
        cases congrArg Lexeme.reading found'
        have within := List.prefix_of_prefix_length_le (List.prefix_append (c :: w) tail)
          longest.front length.le
        have same := within.eq_of_length length
        rw [← same] at longest denotes
        exact ⟨longest, denotes⟩
      · exact absurd (found.symm.trans failed) token_ne_fault
    · exact absurd (found.symm.trans failed) token_ne_fault
  · intro both
    obtain ⟨longest, denotes⟩ := both
    have alone := denotes.front_eq
    obtain ⟨piece, longest', read⟩ | ⟨none, -⟩ :=
      front_spec (not_isBlank_of_front alone) (w ++ tail)
    · obtain rfl := longest.unique longest'
      obtain ⟨t', found, denotes'⟩ | ⟨f, -, rejected⟩ := read
      · rw [found, ← denotes'.front_eq, alone]
      · exact absurd (alone.symm.trans rejected.front_eq) token_ne_fault
    · exact absurd longest.isMatched (none _ longest.front)

end Alone

end Lexeme

end Formula
