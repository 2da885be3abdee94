import Formula.Proofs.Source.Munch

/-! A literal of a text ends at its own closing quote, whatever stands behind it. It stands for a
text unless a backslash in it takes a character along that has no meaning there. -/

namespace Formula

namespace Lexeme

/-- The characters that backslashes take along. From the left, a backslash takes the next character,
which then takes none itself. -/
def paired : List Char → List Char
  | '\\' :: c :: rest => c :: paired rest
  | _ :: rest => paired rest
  | [] => []

def escapes : List Char := ['"', '\\', 'n', 't', 'r']

variable {inner : List Char} {c : Char}

theorem paired_cons (plain : c ≠ '\\') (rest : List Char) : paired (c :: rest) = paired rest := by
  rw [paired]
  exact fun _ _ same _ => plain same

theorem exists_escaped?_iff : (∃ d, Text.escaped? c = some d) ↔ c ∈ escapes := by
  constructor
  · intro stands
    obtain ⟨d, stands⟩ := stands
    unfold Text.escaped? at stands
    split at stands <;> first | decide | cases stands
  · intro member
    simp only [escapes, List.mem_cons, List.not_mem_nil, or_false] at member
    obtain rfl | rfl | rfl | rfl | rfl := member <;> exact ⟨_, rfl⟩

theorem exists_unescapes_cons_iff (plain : c ≠ '\\') :
    (∃ text, Unescapes (c :: inner) text) ↔ ∃ text, Unescapes inner text := by
  constructor
  · intro unescapes
    obtain ⟨text, unescapes⟩ := unescapes
    cases unescapes with
    | plain _ unescapes => exact ⟨_, unescapes⟩
    | escape => exact absurd rfl plain
  · intro unescapes
    obtain ⟨text, unescapes⟩ := unescapes
    exact ⟨c :: text, .plain plain unescapes⟩

theorem exists_unescapes_pair_iff :
    (∃ text, Unescapes ('\\' :: c :: inner) text) ↔
      (∃ d, Text.escaped? c = some d) ∧ ∃ text, Unescapes inner text := by
  constructor
  · intro unescapes
    obtain ⟨text, unescapes⟩ := unescapes
    cases unescapes with
    | plain plain => exact absurd rfl plain
    | escape stands unescapes => exact ⟨⟨_, stands⟩, _, unescapes⟩
  · intro both
    obtain ⟨⟨d, stands⟩, text, unescapes⟩ := both
    exact ⟨d :: text, .escape stands unescapes⟩

/-- The pattern pairs backslashes as the escapes do, so that each pair is judged by itself. -/
theorem exists_unescapes_iff (present : inner ∈ Pattern.body) :
    (∃ text, Unescapes inner text) ↔ ∀ c ∈ paired inner, c ∈ escapes := by
  induction inner, present using Pattern.body_induction with
  | nil => exact iff_of_true ⟨[], .nil⟩ nofun
  | plain c inner quote plain present ih =>
    rw [exists_unescapes_cons_iff plain, paired_cons plain, ih]
  | pair c inner line present ih =>
    rw [exists_unescapes_pair_iff, paired, List.forall_mem_cons, exists_escaped?_iff, ih]

theorem front_of_mem_body (present : inner ∈ Pattern.body) (rest : List Char) :
    (∃ text, Unescapes inner text ∧
        front '"' (inner ++ '"' :: rest) =
          .token (inner.length + 2) (.string (String.ofList text))) ∨
      (∀ text, ¬ Unescapes inner text) ∧
        front '"' (inner ++ '"' :: rest) = .fault (inner.length + 2) .unrecognized := by
  have read : front '"' (inner ++ '"' :: rest) = quoted (inner ++ '"' :: rest) := rfl
  rw [read, quoted_of_mem_body present]
  cases meaning : Text.decode inner with
  | some text => exact .inl ⟨text, decode_eq_some_iff.mp meaning, rfl⟩
  | none =>
    refine .inr ⟨fun text unescapes => ?_, rfl⟩
    rw [decode_eq_some_iff.mpr unescapes] at meaning
    cases meaning

theorem front_eq_fault_iff (present : inner ∈ Pattern.body) (rest : List Char) :
    front '"' (inner ++ '"' :: rest) = .fault (inner.length + 2) .unrecognized ↔
      ∃ c ∈ paired inner, c ∉ escapes := by
  have judged : (∃ c ∈ paired inner, c ∉ escapes) ↔ ¬ ∃ text, Unescapes inner text := by
    rw [exists_unescapes_iff present]
    simp only [not_forall, exists_prop]
  rw [judged]
  obtain ⟨text, unescapes, found⟩ | ⟨none, found⟩ := front_of_mem_body present rest
  · refine iff_of_false ?_ (not_not_intro ⟨text, unescapes⟩)
    rw [found]
    exact token_ne_fault
  · exact iff_of_true found (not_exists.mpr none)

end Lexeme

namespace Source

open Lexeme

variable (s r : String)

theorem toList_literal : (Text.literal s).toList = '"' :: (Text.encode s.toList ++ ['"']) := by
  simp [Text.literal]

theorem toList_literal_append :
    (Text.literal s ++ r).toList = '"' :: (Text.encode s.toList ++ ['"'] ++ r.toList) := by
  rw [String.toList_append, toList_literal, List.cons_append]

theorem front_literal (rest : List Char) :
    front '"' (Text.encode s.toList ++ ['"'] ++ rest) =
      .token (Text.literal s).toList.length (.string s) := by
  have found : quoted (Text.encode s.toList ++ '"' :: rest) = _ := quoted_encode s.toList rest
  rw [String.ofList_toList] at found
  rw [toList_literal, List.append_assoc, List.length_cons, List.length_append]
  exact found

theorem isLongest_literal :
    IsLongest (Text.literal s).toList (Text.literal s ++ r).toList := by
  have found := front_literal s r.toList
  rw [toList_literal] at found
  rw [toList_literal_append, toList_literal]
  exact (front_eq_token_iff.mp found).1

theorem tokens_literal_append :
    tokens (Text.literal s ++ r) =
      (tokensFrom (Text.literal s).utf8ByteSize 0 r.toList).map (⟨.string s, 0⟩ :: ·) := by
  have found := front_literal s r.toList
  rw [toList_literal, List.length_cons] at found
  have size : String.utf8Len ('"' :: (Text.encode s.toList ++ ['"'])) =
      (Text.literal s).utf8ByteSize := by
    rw [← toList_literal, String.utf8Len_toList]
  rw [tokens, toList_literal_append, tokensFrom_cons_of_token found, size, Nat.zero_add]

/-- The literal of a text is the first token of every source that starts with it, and the rest is
read from its end on. A piece that the pattern of such literals matches is read as the text that its
escapes give, unless some backslash takes a character along that has no meaning behind one. -/
theorem literal_delimited :
    (∀ s r : String,
      (∃ rest, (Text.literal s ++ r).toList = '"' :: rest ∧
        front '"' rest = .token (Text.literal s).toList.length (.string s)) ∧
      IsLongest (Text.literal s).toList (Text.literal s ++ r).toList ∧
      tokens (Text.literal s ++ r) =
        (tokensFrom (Text.literal s).utf8ByteSize 0 r.toList).map (⟨.string s, 0⟩ :: ·)) ∧
    ∀ piece ∈ Pattern.string.language, ∃ inner, piece = '"' :: (inner ++ ['"']) ∧
      ∀ rest,
        ((∃ text, Unescapes inner text ∧
            front '"' (inner ++ '"' :: rest) =
              .token piece.length (.string (String.ofList text))) ∨
          front '"' (inner ++ '"' :: rest) = .fault piece.length .unrecognized) ∧
        (front '"' (inner ++ '"' :: rest) = .fault piece.length .unrecognized ↔
          ∃ c ∈ paired inner, c ∉ escapes) := by
  constructor
  · intro s r
    exact ⟨⟨_, toList_literal_append s r, front_literal s r.toList⟩, isLongest_literal s r,
      tokens_literal_append s r⟩
  · intro piece matched
    obtain ⟨inner, present, rfl⟩ := Pattern.mem_string_iff.mp matched
    have length : ('"' :: (inner ++ ['"'])).length = inner.length + 2 := by simp
    refine ⟨inner, rfl, fun rest => ?_⟩
    rw [length]
    refine ⟨?_, front_eq_fault_iff present rest⟩
    obtain read | ⟨-, failed⟩ := front_of_mem_body present rest
    · exact .inl read
    · exact .inr failed

/-- Of three backslashes, the third takes the character behind them along. -/
theorem literal_delimited_three_backslashes :
    ['"', '\\', '\\', '\\', 'q', '"'] ∈ Pattern.string.language ∧
      ∀ rest, front '"' ('\\' :: '\\' :: '\\' :: 'q' :: '"' :: rest) =
        .fault 6 .unrecognized := by
  have present : ['\\', '\\', '\\', 'q'] ∈ Pattern.body :=
    Pattern.pair_mem_body (by decide) (Pattern.pair_mem_body (by decide) Pattern.nil_mem_body)
  have matched : ['"', '\\', '\\', '\\', 'q', '"'] ∈ Pattern.string.language :=
    Pattern.mem_string_iff.mpr ⟨_, present, rfl⟩
  obtain ⟨inner, shape, read⟩ := literal_delimited.2 _ matched
  obtain rfl : inner = ['\\', '\\', '\\', 'q'] :=
    (List.append_cancel_right (List.cons.inj shape).2).symm
  exact ⟨matched, fun rest => (read rest).2.mpr ⟨'q', by decide, by decide⟩⟩

end Source

end Formula
