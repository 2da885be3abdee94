import Formula.Proofs.Rule.Moved
import Formula.Proofs.Source.Cut

/-! Blanks between tokens say nothing: a source with other blanks becomes the same tokens, and is
the same expression or fails at the same token. -/

namespace Formula

open Lexeme

/-- The second text is made of the pieces of the first one that are its tokens, with other blanks
before, between and after them. Where pieces stand apart, they still do. -/
inductive Respaced : List Char → List Char → Prop
  | nil : Respaced [] []
  | gap {blanks blanks' tail tail' : List Char} :
      (∀ c ∈ blanks, isBlank c) → (∀ c ∈ blanks', isBlank c) → (blanks ≠ [] → blanks' ≠ []) →
      Respaced tail tail' → Respaced (blanks ++ tail) (blanks' ++ tail')
  | token {c : Char} {piece tail tail' : List Char} {t : Token} :
      front c (piece ++ tail) = .token (piece.length + 1) t →
      Respaced tail tail' → Respaced (c :: (piece ++ tail)) (c :: (piece ++ tail'))

namespace Respaced

variable {text text' : List Char}

theorem inserted (respaced : Respaced text text') {blanks : List Char}
    (blank : ∀ c ∈ blanks, isBlank c) : Respaced text (blanks ++ text') :=
  .gap (List.forall_mem_nil _) blank (absurd rfl) respaced

/-- The texts are the same up to a place where the second one breaks. -/
theorem exists_common (respaced : Respaced text text') :
    ∃ common rest rest', text = common ++ rest ∧ text' = common ++ rest' ∧ Breaks rest' := by
  induction respaced with
  | nil => exact ⟨[], [], [], rfl, rfl, breaks_nil⟩
  | @gap blanks blanks' tail tail' blank blank' kept respaced ih =>
    cases blanks' with
    | nil =>
      have none : blanks = [] := by
        by_contra present
        exact kept present rfl
      rw [none]
      exact ih
    | cons c blanks' =>
      have break' := mem_breaks_of_isBlank (blank' c (by simp))
      exact ⟨[], blanks ++ tail, c :: blanks' ++ tail', rfl, rfl, breaks_cons break' _⟩
  | @token c piece tail tail' t lexeme respaced ih =>
    obtain ⟨common, rest, rest', rfl, rfl, breaks⟩ := ih
    refine ⟨c :: (piece ++ common), rest, rest', ?_, ?_, breaks⟩
    · rw [List.cons_append, List.append_assoc]
    · rw [List.cons_append, List.append_assoc]

theorem exists_spells (respaced : Respaced text text') :
    ∃ ts, Spells text ts ∧ Spells text' ts := by
  induction respaced with
  | nil => exact ⟨[], .nil, .nil⟩
  | gap blank blank' _ _ ih =>
    obtain ⟨ts, spells, spells'⟩ := ih
    exact ⟨ts, spells.of_blanks blank, spells'.of_blanks blank'⟩
  | @token c piece tail tail' t lexeme respaced ih =>
    obtain ⟨ts, spells, spells'⟩ := ih
    -- What follows the piece is the same up to the first blank that was put in.
    obtain ⟨common, rest, rest', rfl, rfl, breaks⟩ := respaced.exists_common
    refine ⟨t :: ts, spells.token piece lexeme, spells'.token piece ?_⟩
    rw [← List.append_assoc] at lexeme ⊢
    apply front_append_of_breaks lexeme _ breaks
    rw [List.length_append]
    omega

end Respaced

theorem Cut.respaced {offset : Nat} {text : List Char} {located : List Located}
    (cut : Cut offset text located) : Respaced text text := by
  induction cut with
  | nil => exact .nil
  | @blank offset c tail located blank cut ih =>
    have all : ∀ d ∈ [c], isBlank d := List.forall_mem_singleton.mpr blank
    exact .gap all all id ih
  | token piece lexeme cut ih => exact .token lexeme ih

theorem Source.exists_tokens_iff_respaced {source : String} :
    (∃ located, tokens source = .ok located) ↔ Respaced source.toList source.toList := by
  constructor
  · intro ⟨located, read⟩
    exact (tokensFrom_eq_ok_iff.mp read).respaced
  · intro respaced
    obtain ⟨ts, spells, -⟩ := respaced.exists_spells
    obtain ⟨located, read, -⟩ := spells 0
    exact ⟨located, read⟩

namespace Cursor

variable {c c' : Cursor}

def SamePlace (c c' : Cursor) (o o' : Nat) : Prop := (o, o') ∈ c.places.zip c'.places

theorem keepsMax_samePlace (sorted : c.places.Pairwise (· ≤ ·))
    (sorted' : c'.places.Pairwise (· ≤ ·)) :
    Rule.KeepsMax (SamePlace c c') := by
  intro o o' q q'
  unfold SamePlace
  generalize c.places = places at sorted
  generalize c'.places = places' at sorted'
  induction sorted generalizing places' with
  | nil => simp
  | @cons first places least sorted ih =>
    cases sorted' with
    | nil => simp
    | @cons first' places' least' sorted' =>
      intro place place'
      rw [List.zip_cons_cons, List.mem_cons] at place place' ⊢
      obtain same | place := place
      · cases same
        obtain same' | place' := place'
        · cases same'
          simp
        · have above := List.of_mem_zip place'
          rw [Nat.max_eq_right (least q above.1), Nat.max_eq_right (least' q' above.2)]
          exact .inr place'
      · obtain same' | place' := place'
        · cases same'
          have above := List.of_mem_zip place
          rw [Nat.max_eq_left (least o above.1), Nat.max_eq_left (least' o' above.2)]
          exact .inr place
        · exact .inr (ih places' sorted' place place')

theorem moved_samePlace (same : c.tokens.map Located.token = c'.tokens.map Located.token) :
    c.Moved (SamePlace c c') c' := by
  obtain ⟨tokens, stop⟩ := c
  obtain ⟨tokens', stop'⟩ := c'
  unfold Moved SamePlace places
  induction tokens generalizing tokens' with
  | nil =>
    cases tokens' with
    | nil => exact ⟨.nil, by simp⟩
    | cons t' tokens' => cases same
  | cons t tokens ih =>
    cases tokens' with
    | nil => cases same
    | cons t' tokens' =>
      obtain ⟨first, same⟩ := List.cons.inj same
      obtain ⟨rest, ends⟩ := ih tokens' same
      refine ⟨.cons ⟨first, by simp⟩ ?_, List.mem_cons_of_mem _ ends⟩
      exact rest.imp fun t t' moved => ⟨moved.1, List.mem_cons_of_mem _ moved.2⟩

end Cursor

theorem Source.ascends {source : String} {located : List Located}
    (read : tokens source = .ok located) : (Cursor.mk located source.utf8ByteSize).Ascends := by
  have size : source.utf8ByteSize = 0 + String.utf8Len source.toList := by
    rw [Nat.zero_add, ← String.utf8ByteSize_ofList, String.ofList_toList]
  rw [size]
  exact (tokensFrom_eq_ok_iff.mp read).ascends

theorem Source.pairwise_places {source : String} {located : List Located}
    (read : tokens source = .ok located) :
    (Cursor.mk located source.utf8ByteSize).places.Pairwise (· ≤ ·) :=
  (ascends read).imp Nat.le_of_lt

/-- A source with other blanks between its tokens has the same tokens, and whatever it is read as,
it is the same expression, or fails for the same cause at the same token. -/
theorem Expr.ofSource_of_respaced {source source' : String} {located : List Located}
    (read : Source.tokens source = .ok located)
    (respaced : Respaced source.toList source'.toList) :
    ∃ located', Source.tokens source' = .ok located' ∧
      located'.map Located.token = located.map Located.token ∧
      ∀ (goal : Goal) (limit : Nat),
        (∃ e, ofSource goal limit source = .ok e ∧ ofSource goal limit source' = .ok e) ∨
          ∃ error error', ofSource goal limit source = .error error ∧
            ofSource goal limit source' = .error error' ∧ error.SameCause error' ∧
            Cursor.SamePlace ⟨located, source.utf8ByteSize⟩ ⟨located', source'.utf8ByteSize⟩
              error.offset error'.offset := by
  obtain ⟨ts, spells, spells'⟩ := respaced.exists_spells
  obtain ⟨again, found, same⟩ := spells 0
  obtain ⟨located', read', same'⟩ := spells' 0
  have unique : again = located := Except.ok.inj (found.symm.trans read)
  rw [unique] at same
  refine ⟨located', read', same'.trans same.symm, fun goal limit => ?_⟩
  have moved := @Cursor.moved_samePlace ⟨located, source.utf8ByteSize⟩
    ⟨located', source'.utf8ByteSize⟩ (same.trans same'.symm)
  have greatest := Cursor.keepsMax_samePlace (Source.pairwise_places read)
    (Source.pairwise_places read')
  rw [ofSource, ofSource, Source.parse_eq_parseTokens read, Source.parse_eq_parseTokens read']
  exact Source.agree_parseTokens (Rule.uniform_rule greatest goal) limit moved

theorem respaced_least : Respaced "a<=\"b c\"".toList "\ta <=\n\"b c\" ".toList := by
  have after : Respaced [] [' '] := Respaced.nil.inserted (List.forall_mem_singleton.mpr rfl)
  have quoted := @Respaced.token '"' ['b', ' ', 'c', '"'] _ _ (.string "b c") rfl after
  have apart := quoted.inserted (List.forall_mem_singleton.mpr (rfl : isBlank '\n'))
  have relation := @Respaced.token '<' ['='] _ _ (.relation .le) rfl apart
  have apart' := relation.inserted (List.forall_mem_singleton.mpr (rfl : isBlank ' '))
  have word := @Respaced.token 'a' [] _ _ (.identifier "a") rfl apart'
  exact word.inserted (List.forall_mem_singleton.mpr (rfl : isBlank '\t'))

theorem Expr.ofSource_least_respaced :
    ∃ located', Source.tokens "\ta <=\n\"b c\" " = .ok located' ∧
      located'.map Located.token = [.identifier "a", .relation .le, .string "b c"] ∧
      ofSource .boolean 0 "\ta <=\n\"b c\" " =
        .ok (.compare (o := .string) .le (.var "a") (.const "b c")) ∧
      ∃ error, ofSource (.number (.whole .int)) 0 "\ta <=\n\"b c\" " = .error error ∧
        (ParseError.unexpectedTrailingTokens "<=" 1).SameCause error ∧
        Cursor.SamePlace ⟨[⟨.identifier "a", 0⟩, ⟨.relation .le, 1⟩, ⟨.string "b c", 3⟩], 8⟩
          ⟨located', 12⟩ 1 error.offset := by
  have read : Source.tokens "a<=\"b c\"" =
      .ok [⟨.identifier "a", 0⟩, ⟨.relation .le, 1⟩, ⟨.string "b c", 3⟩] := rfl
  have accepted : ofSource .boolean 0 "a<=\"b c\"" =
      .ok (.compare (o := .string) .le (.var "a") (.const "b c")) := by
    rw [ofSource, Source.parse_eq_parseTokens read]
    rfl
  have refused : ofSource (.number (.whole .int)) 0 "a<=\"b c\"" =
      .error (.unexpectedTrailingTokens "<=" 1) := by
    rw [ofSource, Source.parse_eq_parseTokens read]
    rfl
  obtain ⟨located', read', tokens, parsed⟩ := ofSource_of_respaced read respaced_least
  refine ⟨located', read', tokens, ?_, ?_⟩
  · obtain ⟨e, found, found'⟩ | ⟨error, -, failed, -⟩ := parsed .boolean 0
    · rw [accepted] at found
      rw [found', found]
    · rw [accepted] at failed
      cases failed
  · obtain ⟨e, found, -⟩ | ⟨error, error', failed, failed', same, place⟩ :=
      parsed (.number (.whole .int)) 0
    · rw [refused] at found
      cases found
    · rw [refused] at failed
      cases failed
      exact ⟨error', failed', same, place⟩

end Formula
