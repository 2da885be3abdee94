import Formula.Proofs.Token.Pattern

/-! What is read at the front of a text is a piece that a pattern matches, with what it stands for, or
it is refused. -/

namespace Formula

namespace Lexeme

variable {text tail rest w piece inner : List Char} {c : Char} {t : Token} {f : Fault} {n : Nat}

/-- The lexeme is the piece, with what that stands for. -/
def Accounts (piece : List Char) (lexeme : Lexeme) : Prop :=
  (∃ t, lexeme = .token piece.length t ∧ Denotes piece t) ∨
    ∃ f, lexeme = .fault piece.length f ∧ Rejected piece f

theorem Accounts.isMatched {lexeme : Lexeme} (accounts : Accounts piece lexeme) :
    IsMatched piece := by
  obtain ⟨t, -, denotes⟩ | ⟨f, -, rejected⟩ := accounts
  · exact denotes.isMatched
  · exact rejected.isMatched

theorem Accounts.length_eq {lexeme : Lexeme} (accounts : Accounts piece lexeme) :
    lexeme.length = piece.length := by
  obtain ⟨t, rfl, -⟩ | ⟨f, rfl, -⟩ := accounts
  · rfl
  · rfl

def Reads (text : List Char) (lexeme : Lexeme) : Prop :=
  ∃ piece tail, text = piece ++ tail ∧ Accounts piece lexeme

theorem Denotes.reads (denotes : Denotes piece t) (tail : List Char) :
    Reads (piece ++ tail) (.token piece.length t) :=
  ⟨piece, tail, rfl, .inl ⟨t, rfl, denotes⟩⟩

theorem Rejected.reads (rejected : Rejected piece f) (tail : List Char) :
    Reads (piece ++ tail) (.fault piece.length f) :=
  ⟨piece, tail, rfl, .inr ⟨f, rfl, rejected⟩⟩

section Numbers

variable {digits : List Char}

theorem mem_int_paddedDigits (width n : Nat) : paddedDigits width n ∈ Pattern.int.language :=
  Pattern.mem_int_iff.mpr ⟨paddedDigits_ne_nil, fun _ => isDigit_of_mem_paddedDigits⟩

theorem isDigit_of_digits {behind : List Char} (isInt : digits ∈ Pattern.int.language)
    (shape : c :: w = digits ++ behind) : c.isDigit := by
  obtain ⟨present, plain⟩ := Pattern.mem_int_iff.mp isInt
  obtain ⟨d, more, rfl⟩ := List.exists_cons_of_ne_nil present
  cases shape
  exact plain c (List.mem_cons_self ..)

theorem mem_int_takeWhile (digit : c.isDigit) (rest : List Char) :
    (c :: rest).takeWhile Char.isDigit ∈ Pattern.int.language := by
  refine Pattern.mem_int_iff.mpr ⟨?_, List.all_eq_true.1 List.all_takeWhile⟩
  rw [List.takeWhile_cons_of_pos digit]
  exact List.cons_ne_nil _ _

theorem reads_int (number : digits ∈ Pattern.int.language) (tail : List Char) :
    Reads (digits ++ tail) (bounded digits.length greatestInt .int digits) := by
  simp only [bounded]
  split
  · rename_i small
    exact (Denotes.int number small).reads tail
  · rename_i large
    exact (Rejected.int number (Nat.lt_of_not_le large)).reads tail

theorem reads_long (number : digits ∈ Pattern.int.language) {mark : Char}
    (isMark : mark = 'l' ∨ mark = 'L') (tail : List Char) :
    Reads (digits ++ mark :: tail) (bounded (digits.length + 1) greatestLong .long digits) := by
  have split' : digits ++ mark :: tail = digits ++ [mark] ++ tail := by simp
  have length : digits.length + 1 = (digits ++ [mark]).length := by simp
  rw [split', length]
  simp only [bounded]
  split
  · rename_i small
    exact (Denotes.long number isMark small).reads tail
  · rename_i large
    exact (Rejected.long number isMark (Nat.lt_of_not_le large)).reads tail

theorem reads_undated (number : digits ∈ Pattern.int.language) (tail : List Char) :
    Reads (digits ++ tail) (undated digits tail) := by
  unfold undated
  split
  · rename_i rest
    split
    · exact reads_int number _
    · rename_i fraction other
      have present : rest.takeWhile Char.isDigit ≠ [] := other
      have isInt : rest.takeWhile Char.isDigit ∈ Pattern.int.language :=
        Pattern.mem_int_iff.mpr ⟨present, List.all_eq_true.1 List.all_takeWhile⟩
      have reads := (Denotes.double number isInt).reads (rest.dropWhile Char.isDigit)
      have length : (digits ++ '.' :: rest.takeWhile Char.isDigit).length =
          digits.length + 1 + (rest.takeWhile Char.isDigit).length := by
        simp only [List.length_append, List.length_cons]
        omega
      rw [length, List.append_assoc, List.cons_append, List.takeWhile_append_dropWhile] at reads
      exact reads
  · split
    · rename_i isMark
      exact reads_long number isMark _
    · exact reads_int number _
  · exact reads_int number _

def dated (t : Timestamp) : Lexeme :=
  match t.check with
  | .ok instant => .token Timestamp.width (.instant instant)
  | .error reason => .fault Timestamp.width (.dateTime reason)

theorem length_dated (t : Timestamp) : (dated t).length = Timestamp.width := by
  unfold dated
  split <;> rfl

theorem number_of_instant {t : Timestamp} (fits : t.FitsForm) (tail : List Char) :
    number (t.text.toList ++ tail) = dated t := by
  rw [number, Timestamp.read_text fits]
  rfl

theorem reads_number (digit : c.isDigit) (rest : List Char) :
    Reads (c :: rest) (number (c :: rest)) := by
  cases read : Timestamp.read (c :: rest) with
  | some dated =>
    obtain ⟨timestamp, tail⟩ := dated
    obtain ⟨fits, form⟩ := Timestamp.read_eq_some_iff.mp read
    have accepted := fun i => Timestamp.check_eq_ok_iff (i := i) fits.millisecond
    rw [form, number_of_instant fits, dated, ← Timestamp.length_text fits]
    cases checked : timestamp.check with
    | ok i =>
      obtain ⟨exists', rfl⟩ := (accepted i).mp checked
      exact (Denotes.instant fits exists').reads tail
    | error reason =>
      have absent : ¬ timestamp.Exists := by
        intro exists'
        rw [(accepted _).mpr ⟨exists', rfl⟩] at checked
        cases checked
      exact (Rejected.date fits absent checked).reads tail
  | none =>
    rw [number_eq_undated read]
    have reads := reads_undated (mem_int_takeWhile digit rest) ((c :: rest).dropWhile Char.isDigit)
    rwa [List.takeWhile_append_dropWhile] at reads

theorem number_of_digits (plain : ∀ c ∈ digits, c.isDigit)
    (stop : ∀ c, tail.head? = some c → c.isDigit = false ∧ c ≠ '-') :
    number (digits ++ tail) = undated digits tail := by
  rw [number_eq_undated (Timestamp.read_eq_none plain stop),
    takeWhile_append_eq plain fun c next => (stop c next).1,
    dropWhile_append_eq plain fun c next => (stop c next).1]

theorem number_of_long (isInt : digits ∈ Pattern.int.language) {mark : Char}
    (isMark : mark = 'l' ∨ mark = 'L') (tail : List Char) :
    number (digits ++ mark :: tail) = bounded (digits.length + 1) greatestLong .long digits := by
  rw [number_of_digits (Pattern.mem_int_iff.mp isInt).2]
  · obtain rfl | rfl := isMark <;> rfl
  · intro c next
    cases next
    obtain rfl | rfl := isMark <;> decide

theorem number_of_double {whole fraction : List Char} (isInt : whole ∈ Pattern.int.language)
    (isInt' : fraction ∈ Pattern.int.language) (tail : List Char) :
    number (whole ++ '.' :: (fraction ++ tail)) =
      .token (whole.length + 1 + ((fraction ++ tail).takeWhile Char.isDigit).length)
        (.double (.ofDecimal (.ofDigits whole ((fraction ++ tail).takeWhile Char.isDigit)))) := by
  obtain ⟨present, plain⟩ := Pattern.mem_int_iff.mp isInt'
  have present' : (fraction ++ tail).takeWhile Char.isDigit ≠ [] := by
    rw [List.takeWhile_append_of_pos plain]
    exact List.append_ne_nil_of_left_ne_nil present _
  rw [number_of_digits (Pattern.mem_int_iff.mp isInt).2]
  · rw [undated]
    split
    · rename_i absent
      exact absurd absent present'
    · rfl
  · intro c next
    cases next
    decide

theorem length_le_width {t : Timestamp} (fits : t.FitsForm) (dash : '-' ∉ w)
    (front : w <+: t.text.toList ++ tail) : w.length ≤ Timestamp.width := by
  rw [← Timestamp.length_text fits]
  apply Nat.le_of_not_le
  intro long
  have within := List.prefix_of_prefix_length_le (List.prefix_append _ _) front long
  apply dash
  apply within.subset
  rw [Timestamp.toList_text fits]
  simp

theorem length_le_number_of_long (isInt : digits ∈ Pattern.int.language) {mark : Char}
    (isMark : mark = 'l' ∨ mark = 'L') (tail : List Char) :
    (digits ++ [mark]).length ≤ (number (digits ++ [mark] ++ tail)).length := by
  rw [List.append_assoc, List.singleton_append, number_of_long isInt isMark, length_bounded,
    List.length_append, List.length_singleton]

theorem length_le_number_of_double {whole fraction : List Char}
    (isInt : whole ∈ Pattern.int.language) (isInt' : fraction ∈ Pattern.int.language)
    (tail : List Char) :
    (whole ++ '.' :: fraction).length ≤ (number (whole ++ '.' :: fraction ++ tail)).length := by
  have plain := (Pattern.mem_int_iff.mp isInt').2
  rw [List.append_assoc, List.cons_append, number_of_double isInt isInt']
  simp only [token, List.takeWhile_append_of_pos plain, List.length_append, List.length_cons]
  omega

theorem length_le_number (isInt : w ∈ Pattern.int.language) (front : w <+: text) :
    w.length ≤ (number text).length := by
  obtain ⟨present, plain⟩ := Pattern.mem_int_iff.mp isInt
  cases read : Timestamp.read text with
  | some dated =>
    obtain ⟨timestamp, tail⟩ := dated
    obtain ⟨fits, form⟩ := Timestamp.read_eq_some_iff.mp read
    have dash : '-' ∉ w := fun member => absurd (plain _ member) (by decide)
    rw [form] at front ⊢
    rw [number_of_instant fits, length_dated]
    exact length_le_width fits dash front
  | none =>
    rw [number_eq_undated read]
    obtain ⟨tail, rfl⟩ := front
    apply Nat.le_trans _ (length_le_undated _ _)
    rw [List.takeWhile_append_of_pos plain, List.length_append]
    exact Nat.le_add_right _ _

end Numbers

section Words

theorem denotes_wordToken (word : w ∈ Pattern.identifier.language) : Denotes w (wordToken w) := by
  rw [wordToken]
  split
  · rename_i same
    rw [same]
    exact .boolean true
  · split
    · rename_i same
      rw [same]
      exact .boolean false
    · rename_i other other'
      exact .identifier word other other'

theorem reads_word (start : isWordStart c) (rest : List Char) :
    Reads (c :: rest) (word (c :: rest)) := by
  have isWord : (c :: rest).takeWhile isWordChar ∈ Pattern.identifier.language := by
    rw [List.takeWhile_cons_of_pos (isWordChar_of_isWordStart start)]
    apply Pattern.mem_identifier_iff.mpr
    exact Bool.and_eq_true_iff.mpr ⟨start, List.all_takeWhile⟩
  have reads := (denotes_wordToken isWord).reads ((c :: rest).dropWhile isWordChar)
  rwa [List.takeWhile_append_dropWhile] at reads

theorem length_le_word (plain : ∀ c ∈ w, isWordChar c) (tail : List Char) :
    w.length ≤ (word (w ++ tail)).length := by
  simp only [word, token, List.takeWhile_append_of_pos plain, List.length_append]
  exact Nat.le_add_right _ _

end Words

section Quotes

theorem decode_eq_some_iff : Text.decode inner = some text ↔ Unescapes inner text := by
  constructor
  · intro read
    fun_induction Text.decode inner generalizing text with
    | case1 =>
      cases read
      exact .nil
    | case2 letter rest ih =>
      simp only [Option.bind_eq_bind, Option.bind_eq_some_iff, Option.pure_def,
        Option.some.injEq] at read
      obtain ⟨c, stands, left, read, rfl⟩ := read
      exact .escape stands (ih read)
    | case3 rest pair =>
      cases read
    | case4 c rest pair plain ih =>
      obtain ⟨left, read', rfl⟩ := Option.map_eq_some_iff.mp read
      exact .plain plain (ih read')
  · intro unescapes
    induction unescapes with
    | nil => rfl
    | plain plain unescapes ih =>
      rw [Text.decode, if_neg plain, ih]
      · rfl
      · exact fun _ _ same _ => plain same
    | escape stands unescapes ih =>
      rw [Text.decode, stands, ih]
      rfl

theorem quotedBody_of_mem_body (present : inner ∈ Pattern.body) (rest : List Char) :
    quotedBody (inner ++ '"' :: rest) = (inner, true) := by
  induction inner, present using Pattern.body_induction with
  | nil => rfl
  | plain c w quote plain present ih =>
    rw [List.cons_append, quotedBody, ih]
    · exact quote
    · exact fun _ same _ => plain same
    · exact fun _ _ same _ => plain same
  | pair c w line present ih =>
    rw [List.cons_append, List.cons_append, quotedBody, ih]
    exact line

theorem mem_body_of_quotedBody (closed : quotedBody text = (inner, true)) :
    inner ∈ Pattern.body := by
  fun_induction quotedBody text generalizing inner with
  | case1 => cases closed
  | case2 rest =>
    cases closed
    exact Pattern.nil_mem_body
  | case3 => cases closed
  | case4 c rest plain body ends same ih =>
    cases closed
    exact Pattern.pair_mem_body plain (ih same)
  | case5 c rest quote line pair body ends same ih =>
    cases closed
    have plain : c ≠ '\\' := by
      rintro rfl
      cases rest with
      | nil => cases same
      | cons d rest => exact pair d rest rfl rfl
    exact Pattern.cons_mem_body quote plain (ih same)

theorem quoted_of_mem_body (present : inner ∈ Pattern.body) (rest : List Char) :
    quoted (inner ++ '"' :: rest) =
      match Text.decode inner with
      | some value => .token (inner.length + 2) (.string (String.ofList value))
      | none => .fault (inner.length + 2) .unrecognized := by
  rw [quoted, quotedBody_of_mem_body present]
  rfl

theorem reads_quoted_of_mem_body (present : inner ∈ Pattern.body) (rest : List Char) :
    Reads ('"' :: (inner ++ '"' :: rest)) (quoted (inner ++ '"' :: rest)) := by
  have shape : '"' :: (inner ++ '"' :: rest) = '"' :: (inner ++ ['"']) ++ rest := by simp
  have length : inner.length + 2 = ('"' :: (inner ++ ['"'])).length := by simp
  rw [quoted_of_mem_body present, shape, length]
  cases read : Text.decode inner with
  | some value => exact (Denotes.string present (decode_eq_some_iff.mp read)).reads rest
  | none =>
    refine (Rejected.escape present fun value unescapes => ?_).reads rest
    rw [decode_eq_some_iff.mpr unescapes] at read
    cases read

theorem reads_quoted (rest : List Char) :
    Reads ('"' :: rest) (quoted rest) ∨ ∃ n, quoted rest = .fault (n + 1) .unrecognized := by
  cases parts : quotedBody rest with
  | mk inner closed =>
    cases closed with
    | true =>
      obtain ⟨tail, shape, -⟩ := quotedBody_of_closed parts
      rw [shape]
      exact .inl (reads_quoted_of_mem_body (mem_body_of_quotedBody parts) tail)
    | false =>
      refine .inr ⟨inner.length, ?_⟩
      rw [quoted, parts]
      rfl

end Quotes

section Symbols

theorem reads_symbol (text : List Char) :
    Reads text (symbol text) ∨ symbol text = .fault 1 .unrecognized := by
  unfold symbol
  split
  case h_1 => exact .inl ((Denotes.relation .eq).reads _)
  case h_2 => exact .inl ((Denotes.relation .ne).reads _)
  case h_3 => exact .inl ((Denotes.relation .le).reads _)
  case h_4 => exact .inl ((Denotes.relation .ge).reads _)
  case h_5 => exact .inl ((Denotes.connective .and).reads _)
  case h_6 => exact .inl ((Denotes.connective .or).reads _)
  case h_7 => exact .inl ((Denotes.relation .lt).reads _)
  case h_8 => exact .inl ((Denotes.relation .gt).reads _)
  case h_9 => exact .inl (Denotes.dot.reads _)
  case h_10 => exact .inl ((Denotes.arithmetic .add).reads _)
  case h_11 => exact .inl ((Denotes.arithmetic .sub).reads _)
  case h_12 => exact .inl ((Denotes.arithmetic .mul).reads _)
  case h_13 => exact .inl ((Denotes.arithmetic .div).reads _)
  case h_14 => exact .inl (Denotes.openParen.reads _)
  case h_15 => exact .inl (Denotes.closeParen.reads _)
  case h_16 => exact .inr rfl

theorem exists_symbol_relation (op : Relation) (tail : List Char) :
    ∃ n t, symbol (op.symbol.toList ++ tail) = .token n t ∧ op.symbol.toList.length ≤ n := by
  -- The two orders are also the start of a longer symbol.
  by_cases next : ∃ rest, tail = '=' :: rest
  · obtain ⟨rest, rfl⟩ := next
    cases op
    case lt => exact ⟨2, .relation .le, rfl, by decide⟩
    case gt => exact ⟨2, .relation .ge, rfl, by decide⟩
    all_goals exact ⟨2, _, rfl, Nat.le_refl _⟩
  · have plain : ∀ rest, tail = '=' :: rest → False := fun rest same => next ⟨rest, same⟩
    cases op
    case lt =>
      refine ⟨1, .relation .lt, ?_, Nat.le_refl _⟩
      rw [show Relation.lt.symbol.toList ++ tail = '<' :: tail from rfl, symbol]
      exact plain
    case gt =>
      refine ⟨1, .relation .gt, ?_, Nat.le_refl _⟩
      rw [show Relation.gt.symbol.toList ++ tail = '>' :: tail from rfl, symbol]
      exact plain
    all_goals exact ⟨2, _, rfl, Nat.le_refl _⟩

end Symbols

theorem reads_front (other : isBlank c = false) (rest : List Char) :
    Reads (c :: rest) (front c rest) ∨ ∃ n, front c rest = .fault (n + 1) .unrecognized := by
  rw [front, if_neg (Bool.not_eq_true _ ▸ other)]
  split
  · rename_i digit
    exact .inl (reads_number digit rest)
  · split
    · rename_i start
      exact .inl (reads_word start rest)
    · split
      · rename_i quote
        subst quote
        exact reads_quoted rest
      · obtain reads | failed := reads_symbol (c :: rest)
        · exact .inl reads
        · exact .inr ⟨0, failed⟩

end Lexeme

end Formula
