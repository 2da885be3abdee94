import Formula.Text.Invisible

/-! Two ways to quote a text: as a literal, which can be read back, and for display in a message. -/

namespace Formula.Text

def escapeLetter? : Char → Option Char
  | '"' => some '"'
  | '\\' => some '\\'
  | '\n' => some 'n'
  | '\t' => some 't'
  | '\r' => some 'r'
  | _ => none

def escaped? : Char → Option Char
  | '"' => some '"'
  | '\\' => some '\\'
  | 'n' => some '\n'
  | 't' => some '\t'
  | 'r' => some '\r'
  | _ => none

def encodeChar (c : Char) : List Char :=
  match escapeLetter? c with
  | some letter => ['\\', letter]
  | none => [c]

def encode (text : List Char) : List Char := text.flatMap encodeChar

/-- Reads the text between the quotes of a literal; fails on a backslash before a character that
stands for nothing. -/
def decode : List Char → Option (List Char)
  | [] => some []
  | '\\' :: letter :: rest => do
    let c ← escaped? letter
    return c :: (← decode rest)
  | c :: rest => if c = '\\' then none else (decode rest).map (c :: ·)

theorem escaped?_of_escapeLetter? {c letter : Char} (h : escapeLetter? c = some letter) :
    escaped? letter = some c := by
  unfold escapeLetter? at h
  split at h <;> simp_all [escaped?]
  all_goals
    subst h
    rfl

theorem ne_backslash_of_escapeLetter? {c : Char} (h : escapeLetter? c = none) : c ≠ '\\' := by
  rintro rfl
  simp [escapeLetter?] at h

theorem decode_encode (text : List Char) : decode (encode text) = some text := by
  induction text with
  | nil => rfl
  | cons c rest ih =>
    simp only [encode, List.flatMap_cons, encodeChar] at ih ⊢
    cases h : escapeLetter? c with
    | some letter =>
      simp only [List.cons_append, List.nil_append, decode, escaped?_of_escapeLetter? h]
      simp [ih]
    | none =>
      have plain := ne_backslash_of_escapeLetter? h
      simp [decode, plain, ih]

def literal (text : String) : String :=
  "\"" ++ String.ofList (encode text.toList) ++ "\""

def showChar (c : Char) : List Char :=
  match c with
  | '\x00' => ['\\', '0']
  | '\t' => ['\\', 't']
  | '\r' => ['\\', 'r']
  | '\n' => ['\\', 'n']
  | '"' => ['\\', '"']
  | '\\' => ['\\', '\\']
  | c => if isInvisible c then ['\\', 'u', '{'] ++ Nat.toDigits 16 c.toNat ++ ['}'] else [c]

def shown (text : String) : String :=
  "\"" ++ String.ofList (text.toList.flatMap showChar) ++ "\""

end Formula.Text
