import Formula.Proofs.Token.Lexeme
import Formula.Source.Tokens

/-! All tokens of a source have a written form. -/

namespace Formula

/-- Names are identifiers, instants are dates with a written form, and a double is a number. -/
def Token.IsWritten : Token → Prop
  | .identifier text => Lexeme.IsIdentifier text
  | .instant i => i.IsWritten
  | .double x => x ≠ .nan
  | _ => True

namespace Lexeme

variable {t : Token} {text rest : List Char}

theorem isWritten_bounded {length greatest : Nat} (make : Nat → Token) {digits : List Char}
    (written : ∀ n, (make n).IsWritten)
    (found : (bounded length greatest make digits).reading = .ok (some t)) : t.IsWritten := by
  simp only [bounded] at found
  split at found
  · cases found
    exact written _
  · cases found

theorem isWritten_number (found : (number text).reading = .ok (some t)) : t.IsWritten := by
  unfold number at found
  split at found
  · rename_i timestamp left read
    split at found
    · rename_i i checked
      cases found
      exact Instant.isWritten_of_read read checked
    · cases found
  · split at found
    · split at found
      · exact isWritten_bounded .int (fun _ => trivial) found
      · cases found
        exact nofun
    · split at found
      · exact isWritten_bounded .long (fun _ => trivial) found
      · exact isWritten_bounded .int (fun _ => trivial) found
    · exact isWritten_bounded .int (fun _ => trivial) found

theorem isWritten_wordToken (isWord : isWord text) : (wordToken text).IsWritten := by
  unfold wordToken
  split
  · trivial
  split
  · trivial
  · rename_i notTrue notFalse
    refine ⟨by rwa [String.toList_ofList], ?_, ?_⟩
    · intro same
      exact notTrue (by rw [← same, String.toList_ofList])
    · intro same
      exact notFalse (by rw [← same, String.toList_ofList])

theorem isWord_takeWhile {c : Char} (start : isWordStart c) :
    isWord ((c :: rest).takeWhile isWordChar) := by
  rw [List.takeWhile_cons_of_pos (isWordChar_of_isWordStart start)]
  exact Bool.and_eq_true_iff.mpr ⟨start, List.all_takeWhile⟩

theorem isWritten_quoted (found : (quoted rest).reading = .ok (some t)) : t.IsWritten := by
  simp only [quoted] at found
  split at found
  · split at found
    · cases found
      trivial
    · cases found
  · cases found

theorem isWritten_symbol (found : (symbol text).reading = .ok (some t)) : t.IsWritten := by
  unfold symbol at found
  split at found <;> cases found <;> trivial

theorem isWritten_front {c : Char} (found : (front c rest).reading = .ok (some t)) :
    t.IsWritten := by
  unfold front at found
  split at found
  · cases found
  split at found
  · exact isWritten_number found
  split at found
  · rename_i start
    cases found
    exact isWritten_wordToken (isWord_takeWhile start)
  split at found
  · exact isWritten_quoted found
  · exact isWritten_symbol found

end Lexeme

namespace Source

theorem isWritten_of_tokensFrom {offset skip : Nat} {text : List Char} {located : List Located}
    (found : tokensFrom offset skip text = .ok located) : ∀ t ∈ located, t.token.IsWritten := by
  fun_induction tokensFrom offset skip text generalizing located with
  | case1 => cases found; simp
  | case2 offset skip c rest ih => exact ih found
  | case3 offset c rest fault reading => cases found
  | case4 offset c rest lexeme reading =>
    rename_i ih
    exact ih found
  | case5 offset c rest lexeme token reading =>
    rename_i ih
    simp only [bind, Except.bind] at found
    split at found
    · cases found
    · rename_i tokens left
      cases found
      rw [List.forall_mem_cons]
      exact ⟨Lexeme.isWritten_front reading, ih left⟩

theorem isWritten_of_tokens {source : String} {located : List Located}
    (found : tokens source = .ok located) : ∀ t ∈ located.map Located.token, t.IsWritten := by
  intro token present
  rcases List.mem_map.1 present with ⟨t, listed, rfl⟩
  exact isWritten_of_tokensFrom found t listed

end Source

end Formula
