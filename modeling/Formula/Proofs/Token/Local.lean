import Formula.Proofs.Token.Break

/-! A token at the front of a text is the same whatever stands behind it, as long as that is a
break. -/

namespace Formula

namespace Lexeme

variable {front tail tail' : List Char} {n : Nat} {t : Token}

theorem takeWhile_append_congr {p : Char → Bool}
    (within : ((front ++ tail).takeWhile p).length ≤ front.length) (none : breaks.any p = false)
    (breaks : Breaks tail') : (front ++ tail').takeWhile p = (front ++ tail).takeWhile p := by
  rw [takeWhile_append_of_length_le within, takeWhile_append_of_stop (breaks.stop none)]

theorem not_cons_of_breaks {d : Char} (plain : ∀ rest, front ++ tail = d :: rest → False)
    (other : d ∉ breaks) (breaks : Breaks tail') (rest : List Char) :
    front ++ tail' ≠ d :: rest := by
  cases front with
  | nil => exact fun shape => other (breaks d (by rw [← List.nil_append tail', shape]; rfl))
  | cons c front =>
    intro shape
    cases shape
    exact plain _ rfl

theorem word_append_of_breaks (found : word (front ++ tail) = .token n t)
    (within : n ≤ front.length) (breaks : Breaks tail') : word (front ++ tail') = .token n t := by
  have length : ((front ++ tail).takeWhile isWordChar).length = n := congrArg Lexeme.length found
  have same : (front ++ tail').takeWhile isWordChar = (front ++ tail).takeWhile isWordChar :=
    takeWhile_append_congr (by omega) (by decide) breaks
  rw [← found, word, word, same]

theorem symbol_append_of_breaks {c : Char} (found : symbol (c :: (front ++ tail)) = .token n t)
    (within : n ≤ front.length + 1) (breaks : Breaks tail') :
    symbol (c :: (front ++ tail')) = .token n t := by
  generalize shape : c :: (front ++ tail) = text at found
  unfold symbol at found
  split at found
  case h_7 plain | h_8 plain =>
    cases shape
    rw [symbol, found]
    exact not_cons_of_breaks plain (by decide) breaks
  case h_16 => cases found
  case h_1 | h_2 | h_3 | h_4 | h_5 | h_6 =>
    cases found
    cases front with
    | nil => simp at within
    | cons d front =>
      cases shape
      rfl
  all_goals
    cases shape
    cases found
    rfl

section Numbers

variable {digits : List Char}

def undated (digits : List Char) : List Char → Lexeme
  | '.' :: rest =>
    match rest.takeWhile Char.isDigit with
    | [] => bounded digits.length greatestInt .int digits
    | fraction =>
      .token (digits.length + 1 + fraction.length)
        (.double (.ofDecimal (.ofDigits digits fraction)))
  | c :: _ =>
    if c = 'l' ∨ c = 'L' then bounded (digits.length + 1) greatestLong .long digits
    else bounded digits.length greatestInt .int digits
  | [] => bounded digits.length greatestInt .int digits

theorem number_eq_undated {text : List Char} (none : Timestamp.read text = none) :
    number text = undated (text.takeWhile Char.isDigit) (text.dropWhile Char.isDigit) := by
  unfold number
  rw [none]
  rfl

theorem length_bounded (length greatest : Nat) (make : Nat → Token) (digits : List Char) :
    (bounded length greatest make digits).length = length := by
  simp only [bounded]
  split <;> rfl

theorem length_le_undated (digits rest : List Char) :
    digits.length ≤ (undated digits rest).length := by
  have whole (make : Nat → Token) (greatest : Nat) :
      digits.length ≤ (bounded digits.length greatest make digits).length :=
    Nat.le_of_eq (length_bounded ..).symm
  unfold undated
  split
  · split
    · exact whole _ _
    · simp only [token]
      omega
  · split
    · rw [length_bounded]
      omega
    · exact whole _ _
  · exact whole _ _

theorem undated_of_breaks (breaks : Breaks tail) :
    undated digits tail = bounded digits.length greatestInt .int digits := by
  cases tail with
  | nil => rfl
  | cons c tail =>
    have break' : c ∈ Lexeme.breaks := breaks c rfl
    have point : c ≠ '.' := fun same => absurd (same ▸ break') (by decide)
    have mark : ¬(c = 'l' ∨ c = 'L') := by
      rintro (rfl | rfl) <;> exact absurd break' (by decide)
    rw [undated, if_neg mark]
    exact point

theorem undated_of_length_le {rest : List Char}
    (within : (undated digits rest).length ≤ digits.length) :
    undated digits rest = bounded digits.length greatestInt .int digits := by
  unfold undated at within ⊢
  split at within
  · split at within
    · rfl
    · simp only [token] at within
      omega
  · split at within
    · rw [length_bounded] at within
      omega
    · rename_i plain
      exact if_neg plain
  · rfl

theorem undated_append_of_breaks (found : undated digits (front ++ tail) = .token n t)
    (within : n ≤ digits.length + front.length) (breaks : Breaks tail') :
    undated digits (front ++ tail') = .token n t := by
  cases front with
  | nil =>
    rw [List.nil_append] at found
    have short : (undated digits tail).length ≤ digits.length := by
      rw [found]
      exact within
    rw [List.nil_append, undated_of_breaks breaks, ← undated_of_length_le short, found]
  | cons c front =>
    by_cases point : c = '.'
    · subst point
      have fraction : ((front ++ tail).takeWhile Char.isDigit).length ≤ front.length := by
        simp only [List.cons_append, undated] at found
        split at found
        · rename_i none
          simp [none]
        · have length : digits.length + 1 + ((front ++ tail).takeWhile Char.isDigit).length = n :=
            congrArg Lexeme.length found
          rw [List.length_cons] at within
          omega
      simp only [List.cons_append, undated] at found ⊢
      rw [takeWhile_append_congr fraction (by decide) breaks]
      exact found
    · simp only [List.cons_append, undated] at found ⊢
      exact found

theorem number_append_of_breaks (found : number (front ++ tail) = .token n t)
    (within : n ≤ front.length) (breaks : Breaks tail') : number (front ++ tail') = .token n t := by
  cases read : Timestamp.read (front ++ tail) with
  | some dated =>
    obtain ⟨timestamp, rest⟩ := dated
    simp only [number, read] at found
    split at found
    · rename_i i checked
      cases found
      obtain ⟨rest', again⟩ := Timestamp.read_of_append read within tail'
      simp only [number, again, checked]
    · cases found
  | none =>
    rw [number_eq_undated read] at found
    have short := length_le_undated ((front ++ tail).takeWhile Char.isDigit)
      ((front ++ tail).dropWhile Char.isDigit)
    rw [found] at short
    -- The first digits end within the front, before either tail.
    have cut := takeWhile_append_of_length_le (Nat.le_trans short within)
    have cut' : (front ++ tail').takeWhile Char.isDigit = front.takeWhile Char.isDigit :=
      takeWhile_append_of_stop (breaks.stop (by decide))
    have length : front.length = (front.takeWhile Char.isDigit).length +
        (front.dropWhile Char.isDigit).length := by
      rw [← List.length_append, List.takeWhile_append_dropWhile]
    rw [cut, dropWhile_append_of_takeWhile_eq cut] at found
    rw [number_eq_undated (Timestamp.read_eq_none_of_append read breaks), cut',
      dropWhile_append_of_takeWhile_eq cut']
    exact undated_append_of_breaks found (by omega) breaks

end Numbers

section Quotes

theorem quotedBody_of_closed {text body : List Char} (closed : quotedBody text = (body, true)) :
    ∃ rest, text = body ++ '"' :: rest ∧
      ∀ rest', quotedBody (body ++ '"' :: rest') = (body, true) := by
  fun_induction quotedBody text generalizing body with
  | case1 => cases closed
  | case2 rest =>
    cases closed
    exact ⟨rest, rfl, fun _ => rfl⟩
  | case3 => cases closed
  | case4 c rest plain inner ends same ih =>
    cases closed
    obtain ⟨more, shape, again⟩ := ih same
    refine ⟨more, by rw [shape]; rfl, fun rest' => ?_⟩
    rw [List.cons_append, List.cons_append, quotedBody, again]
    exact plain
  | case5 c rest quote line pair inner ends same ih =>
    cases closed
    obtain ⟨more, shape, again⟩ := ih same
    refine ⟨more, by rw [shape]; rfl, fun rest' => ?_⟩
    -- A backslash that takes no character along is the last one, and nothing is closed.
    have plain : c ≠ '\\' := by
      rintro rfl
      cases rest with
      | nil => cases same
      | cons d rest => exact pair d rest rfl rfl
    rw [List.cons_append, quotedBody, again]
    · exact quote
    · exact fun _ same _ => plain same
    · exact fun _ _ same _ => plain same

theorem exists_of_quoted {rest : List Char} (found : quoted rest = .token n t) :
    ∃ body more, rest = body ++ '"' :: more ∧ n = body.length + 2 ∧
      ∀ more', quoted (body ++ '"' :: more') = .token n t := by
  generalize parts : quotedBody rest = body at found
  obtain ⟨body, closed⟩ := body
  simp only [quoted, parts] at found
  cases closed with
  | false => cases found
  | true =>
    have length : n = body.length + 2 := by
      rw [if_pos rfl] at found
      split at found
      · exact congrArg Lexeme.length found.symm
      · cases found
    obtain ⟨more, shape, again⟩ := quotedBody_of_closed parts
    refine ⟨body, more, shape, length, fun more' => ?_⟩
    rw [quoted, again]
    exact found

theorem quoted_append (found : quoted (front ++ tail) = .token n t) (within : n ≤ front.length + 1)
    (tail' : List Char) : quoted (front ++ tail') = .token n t := by
  obtain ⟨body, rest, shape, length, again⟩ := exists_of_quoted found
  rw [← List.singleton_append, ← List.append_assoc] at shape
  obtain ⟨more, longer, -⟩ := exists_eq_append_of_length_le shape (by
    rw [List.length_append, List.length_singleton]
    omega)
  rw [longer, List.append_assoc, List.append_assoc, List.singleton_append, again]

end Quotes

/-- The first character alone chooses how a piece is read. -/
theorem front_cases (c : Char) :
    (isBlank c ∧ ∀ rest, Lexeme.front c rest = ⟨1, .ok none⟩) ∨
      (c.isDigit ∧ ∀ rest, Lexeme.front c rest = number (c :: rest)) ∨
      (isWordStart c ∧ ∀ rest, Lexeme.front c rest = word (c :: rest)) ∨
      (∀ rest, Lexeme.front c rest = quoted rest) ∨
      ∀ rest, Lexeme.front c rest = symbol (c :: rest) := by
  by_cases blank : isBlank c
  · exact .inl ⟨blank, fun rest => if_pos blank⟩
  by_cases digit : c.isDigit
  · exact .inr (.inl ⟨digit, front_of_isDigit digit⟩)
  by_cases start : isWordStart c
  · exact .inr (.inr (.inl ⟨start, front_of_isWordStart start⟩))
  by_cases quote : c = '"'
  · subst quote
    exact .inr (.inr (.inr (.inl fun rest => rfl)))
  · exact .inr (.inr (.inr (.inr fun rest => by simp [Lexeme.front, blank, digit, start, quote])))

/-- A token that lies within the front of a text is the same before every break. -/
theorem front_append_of_breaks {c : Char} (found : Lexeme.front c (front ++ tail) = .token n t)
    (within : n ≤ front.length + 1) (breaks : Breaks tail') :
    Lexeme.front c (front ++ tail') = .token n t := by
  obtain ⟨-, same⟩ | ⟨-, same⟩ | ⟨-, same⟩ | same | same := front_cases c
  · rw [same] at found
    cases found
  · rw [same, ← List.cons_append] at found ⊢
    exact number_append_of_breaks found within breaks
  · rw [same, ← List.cons_append] at found ⊢
    exact word_append_of_breaks found within breaks
  · rw [same] at found ⊢
    exact quoted_append found within tail'
  · rw [same] at found ⊢
    exact symbol_append_of_breaks found within breaks

section Lengths

variable {c : Char} {rest : List Char}

theorem undated_length_le (digits rest : List Char) :
    (undated digits rest).length ≤ digits.length + rest.length := by
  unfold undated
  split
  · rename_i rest
    split
    · rw [length_bounded]
      omega
    · have short := (List.takeWhile_sublist (l := rest) Char.isDigit).length_le
      simp only [token, List.length_cons]
      omega
  · split
    · rw [length_bounded, List.length_cons]
      omega
    · rw [length_bounded]
      omega
  · exact Nat.le_of_eq (length_bounded ..)

theorem length_number (digit : c.isDigit) (found : number (c :: rest) = .token n t) :
    0 < n ∧ n ≤ (c :: rest).length := by
  cases read : Timestamp.read (c :: rest) with
  | some dated =>
    obtain ⟨timestamp, left⟩ := dated
    obtain ⟨written, shape, length, -, -⟩ := Timestamp.looksAt_read _ _ _ read
    simp only [number, read] at found
    split at found
    · cases found
      rw [shape, List.length_append, length]
      exact ⟨by decide, Nat.le_add_right _ _⟩
    · cases found
  | none =>
    rw [number_eq_undated read] at found
    have whole : ((c :: rest).takeWhile Char.isDigit).length +
        ((c :: rest).dropWhile Char.isDigit).length = (c :: rest).length := by
      rw [← List.length_append, List.takeWhile_append_dropWhile]
    have least := length_le_undated ((c :: rest).takeWhile Char.isDigit)
      ((c :: rest).dropWhile Char.isDigit)
    have most := undated_length_le ((c :: rest).takeWhile Char.isDigit)
      ((c :: rest).dropWhile Char.isDigit)
    have present : 0 < ((c :: rest).takeWhile Char.isDigit).length := by
      rw [List.takeWhile_cons_of_pos digit]
      exact Nat.succ_pos _
    rw [found] at least most
    simp only [token] at least most
    omega

theorem length_word (start : isWordStart c) (found : word (c :: rest) = .token n t) :
    0 < n ∧ n ≤ (c :: rest).length := by
  have length : ((c :: rest).takeWhile isWordChar).length = n := congrArg Lexeme.length found
  rw [← length]
  refine ⟨?_, (List.takeWhile_sublist isWordChar).length_le⟩
  rw [List.takeWhile_cons_of_pos (isWordChar_of_isWordStart start)]
  exact Nat.succ_pos _

theorem length_symbol (found : symbol (c :: rest) = .token n t) : 0 < n ∧ n ≤ rest.length + 1 := by
  generalize shape : c :: rest = text at found
  unfold symbol at found
  split at found <;> cases found <;> cases shape <;> simp

theorem exists_piece_of_front (found : Lexeme.front c rest = .token n t) :
    ∃ piece tail, rest = piece ++ tail ∧ n = piece.length + 1 := by
  have bounds : 0 < n ∧ n ≤ rest.length + 1 := by
    obtain ⟨-, same⟩ | ⟨digit, same⟩ | ⟨start, same⟩ | same | same := front_cases c
    · rw [same] at found
      cases found
    · rw [same] at found
      exact length_number digit found
    · rw [same] at found
      exact length_word start found
    · rw [same] at found
      obtain ⟨body, more, shape, length, -⟩ := exists_of_quoted found
      rw [shape, List.length_append, List.length_cons]
      omega
    · rw [same] at found
      exact length_symbol found
  refine ⟨rest.take (n - 1), rest.drop (n - 1), (List.take_append_drop _ _).symm, ?_⟩
  rw [List.length_take]
  omega

end Lengths

end Lexeme

end Formula
