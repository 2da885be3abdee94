import Formula.Token.Lexeme

/-! From the text of a source to its tokens. -/

namespace Formula.Source

/-- The tokens of a text that starts at `offset`, of which the first `skip` characters are already
read. -/
def tokensFrom (offset : Nat) : Nat → List Char → Except ParseError (List Located)
  | _, [] => .ok []
  | skip + 1, c :: rest => tokensFrom (offset + c.utf8Size) skip rest
  | 0, c :: rest =>
    let lexeme := Lexeme.front c rest
    match lexeme.reading with
    | .error fault => .error (fault.error (String.ofList ((c :: rest).take lexeme.length)) offset)
    | .ok none => tokensFrom (offset + c.utf8Size) (lexeme.length - 1) rest
    | .ok (some token) => do
      let tokens ← tokensFrom (offset + c.utf8Size) (lexeme.length - 1) rest
      return ⟨token, offset⟩ :: tokens

def tokens (source : String) : Except ParseError (List Located) := tokensFrom 0 0 source.toList

end Formula.Source
