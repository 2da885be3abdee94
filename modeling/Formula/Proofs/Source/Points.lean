import Formula.Proofs.Rule.Mismatch
import Formula.Proofs.Source.Refused

/-! Every error points into its source: at one of its tokens, at the piece that is none, or at its
end. -/

namespace Formula

open Lexeme

def Shows (source piece : String) (offset : Nat) : Prop :=
  ∃ before after, source = before ++ piece ++ after ∧ before.utf8ByteSize = offset

namespace Shows

variable {source piece : String} {offset : Nat}

theorem of_chars {before inner after : List Char}
    (split : source.toList = before ++ inner ++ after) :
    Shows source (String.ofList inner) (String.utf8Len before) := by
  refine ⟨String.ofList before, String.ofList after, ?_, String.utf8ByteSize_ofList before⟩
  rw [← String.ofList_append, ← String.ofList_append, ← split, String.ofList_toList]

theorem stop (source : String) : Shows source "" source.utf8ByteSize :=
  ⟨source, "", by simp, rfl⟩

theorem le (shows : Shows source piece offset) : offset ≤ source.utf8ByteSize := by
  rcases shows with ⟨before, after, rfl, rfl⟩
  rw [String.append_assoc, String.utf8ByteSize_append]
  exact Nat.le_add_right _ _

theorem isValid (shows : Shows source piece offset) : String.Pos.Raw.IsValid source ⟨offset⟩ := by
  rcases shows with ⟨before, after, rfl, rfl⟩
  have within : before.toList <+: (before ++ piece ++ after).toList := by simp
  have valid := Source.isValid_of_prefix within
  rwa [← String.utf8ByteSize_ofList, String.ofList_toList] at valid

end Shows

theorem Munched.exists_of_mem {offset : Nat} {text : List Char} {located : List Located}
    (munched : Munched offset text located) {t : Located} (present : t ∈ located) :
    ∃ before piece after, text = before ++ piece ++ after ∧ Denotes piece t.token ∧
      t.offset = offset + String.utf8Len before := by
  induction munched with
  | nil => cases present
  | @token offset blanks piece rest u located blank longest denotes munched ih =>
    rcases List.mem_cons.mp present with rfl | present
    · exact ⟨blanks, piece, rest, by simp, denotes, rfl⟩
    · rcases ih present with ⟨before, piece', after, rfl, denotes', place⟩
      refine ⟨blanks ++ piece ++ before, piece', after, by simp, denotes', ?_⟩
      rw [place, String.utf8Len_append (blanks ++ piece), Nat.add_assoc]

theorem Source.exists_shows_of_mem {source : String} {located : List Located} {t : Located}
    (found : tokens source = .ok located) (present : t ∈ located) :
    ∃ piece, Denotes piece t.token ∧ Shows source (String.ofList piece) t.offset := by
  have munched : Munched 0 source.toList located :=
    munched_iff_cut.mpr (tokensFrom_eq_ok_iff.mp found)
  rcases munched.exists_of_mem present with ⟨before, piece, after, split, denotes, place⟩
  refine ⟨piece, denotes, ?_⟩
  rw [place, Nat.zero_add]
  exact .of_chars split

namespace ParseError

/-- The error tells of a piece that stands in the source at its offset and is no token. -/
def Rejects (source : String) (e : ParseError) : Prop :=
  ∃ (f : Fault) (piece : String), e = f.error piece e.offset ∧ piece ≠ "" ∧
    Shows source piece e.offset

/-- The error is at a token of the row, or at the end if it is there that tokens are missing. -/
inductive PointsTo (c : Cursor) : ParseError → Prop
  | mismatch {e : ParseError} : e.IsMismatch c → PointsTo c e
  | choice {furthest : Nat} (trace : List String) :
      furthest ∈ c.places → PointsTo c (.noMatchingAlternative furthest trace)
  | trailing {t : Located} :
      t ∈ c.tokens → PointsTo c (.unexpectedTrailingTokens t.token.text t.offset)
  | tooDeep {t : Located} (limit : Nat) :
      t ∈ c.tokens → t.token = .openParen → PointsTo c (.nestingTooDeep limit t.offset)

variable {c : Cursor} {e : ParseError}

theorem PointsTo.offset_mem_places (points : e.PointsTo c) : e.offset ∈ c.places := by
  cases points with
  | mismatch mismatch => exact mismatch.offset_mem_places
  | choice trace present => exact present
  | trailing present => exact Cursor.mem_places_iff.mpr (.inl ⟨_, present, rfl⟩)
  | tooDeep limit present => exact Cursor.mem_places_iff.mpr (.inl ⟨_, present, rfl⟩)

end ParseError

namespace Source

variable {goal : Goal} {limit : Nat} {source : String} {located : List Located} {c : Cursor}
  {e : ParseError}

theorem rejects_of_tokens (failed : tokens source = .error e) : e.Rejects source := by
  rcases strands_of_tokensFrom failed with ⟨front, rest, located, split, -, stuck⟩
  rw [Nat.zero_add] at stuck
  have shown (f : Fault) {piece : List Char} (within : piece <+: rest) (present : piece ≠ []) :
      (f.error (String.ofList piece) (String.utf8Len front)).Rejects source := by
    have place : (f.error (String.ofList piece) (String.utf8Len front)).offset =
        String.utf8Len front := by
      cases f <;> rfl
    rcases within with ⟨after, rfl⟩
    refine ⟨f, String.ofList piece, by rw [place], by simpa using present, ?_⟩
    rw [place]
    exact .of_chars (by rw [split, List.append_assoc])
  cases stuck with
  | unmatched _ within present => exact shown .unrecognized within present
  | @rejected piece f longest _ =>
    rcases longest.isMatched.exists_cons with ⟨_, _, rfl⟩
    exact shown f longest.front (List.cons_ne_nil _ _)

theorem Refused.pointsTo (refused : Refused goal limit c e) : e.PointsTo c := by
  cases refused with
  | tooDeep first =>
    rcases first with ⟨before, rest, split, isOpen, -⟩
    exact .tooDeep limit (by rw [split]; simp) isOpen
  | rule _ failed =>
    rcases Rule.isMismatch_or_choice_of_rule failed with mismatch | ⟨present, trace, same⟩
    · exact .mismatch mismatch
    · rw [same]
      exact .choice trace present
  | trailing _ success =>
    rcases goal.takes_rule _ _ _ success with ⟨taken, start, -⟩
    rw [start]
    exact .trailing (List.mem_append_right taken (List.mem_cons_self ..))

theorem exists_shows_of_mem_places (found : tokens source = .ok located) {o : Nat}
    (present : o ∈ (Cursor.mk located source.utf8ByteSize).places) :
    ∃ piece, Shows source piece o := by
  rcases Cursor.mem_places_iff.mp present with ⟨t, within, rfl⟩ | rfl
  · rcases exists_shows_of_mem found within with ⟨piece, -, shows⟩
    exact ⟨_, shows⟩
  · exact ⟨"", .stop source⟩

end Source

namespace Expr

variable {goal : Goal} {limit : Nat} {source : String} {e : ParseError}

/-- The offset of an error is a place between characters of the source. A source that has tokens is
blamed at one of them or at its end, and any other at a piece that it shows. -/
theorem ofSource_error_points (failed : ofSource goal limit source = .error e) :
    e.offset ≤ source.utf8ByteSize ∧ String.Pos.Raw.IsValid source ⟨e.offset⟩ ∧
      ((Source.tokens source = .error e ∧ e.Rejects source) ∨
        ∃ located, Source.tokens source = .ok located ∧
          (∀ t ∈ located, ∃ piece, Denotes piece t.token ∧
            Shows source (String.ofList piece) t.offset) ∧
          e.PointsTo ⟨located, source.utf8ByteSize⟩) := by
  rcases Source.refused_of_ofSource failed with found | ⟨located, found, refused⟩
  · rcases Source.rejects_of_tokens found with ⟨f, piece, same, present, shows⟩
    exact ⟨shows.le, shows.isValid, .inl ⟨found, f, piece, same, present, shows⟩⟩
  · have points := refused.pointsTo
    rcases Source.exists_shows_of_mem_places found points.offset_mem_places with ⟨piece, shows⟩
    exact ⟨shows.le, shows.isValid,
      .inr ⟨located, found, fun t present => Source.exists_shows_of_mem found present, points⟩⟩

theorem ofSource_error_points_behind :
    ofSource .boolean 0 "\"é\" < \"ü\" )" = .error (.unexpectedTrailingTokens ")" 12) ∧
      12 ≤ "\"é\" < \"ü\" )".utf8ByteSize ∧
      String.Pos.Raw.IsValid "\"é\" < \"ü\" )" ⟨12⟩ := by
  have row : Source.tokens "\"é\" < \"ü\" )" =
      .ok [⟨.string "é", 0⟩, ⟨.relation .lt, 5⟩, ⟨.string "ü", 7⟩, ⟨.closeParen, 12⟩] := rfl
  have failed : ofSource .boolean 0 "\"é\" < \"ü\" )" =
      .error (.unexpectedTrailingTokens ")" 12) := by
    rw [ofSource, Source.parse_eq_parseTokens row]
    rfl
  have points := ofSource_error_points failed
  exact ⟨failed, points.1, points.2.1⟩

end Expr
end Formula
