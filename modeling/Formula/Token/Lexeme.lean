import Formula.ParseError
import Formula.Token

/-! The longest piece at the front of a text that is a token or a blank. -/

namespace Formula

attribute [local instance (high)] instPowNat

inductive Fault
  | unrecognized
  | tooLarge
  | dateTime (reason : DateTimeError)
  deriving DecidableEq, Repr

def Fault.error (text : String) (offset : Nat) : Fault → ParseError
  | .unrecognized => .invalidToken text offset
  | .tooLarge => .literalTooLarge text offset
  | .dateTime reason => .invalidDateTime text reason offset

/-- A piece of `length` characters, and the token it is; a blank is none. -/
structure Lexeme where
  length : Nat
  reading : Except Fault (Option Token)

namespace Lexeme

def isBlank (c : Char) : Bool :=
  c == ' ' || c == '\t' || c == '\r' || c == '\n' || c == '\x0c'

def isWordStart (c : Char) : Bool := c.isAlpha || c == '_'

def isWordChar (c : Char) : Bool := c.isAlphanum || c == '_'

def token (length : Nat) (t : Token) : Lexeme := ⟨length, .ok (some t)⟩

def fault (length : Nat) (f : Fault) : Lexeme := ⟨length, .error f⟩

def greatestInt : Nat := 2 ^ (63 : Nat) - 1

/-- The greatest long literal. The limits of the kind itself apply once its sign is known. -/
def greatestLong : Nat := 2 ^ (127 : Nat) - 1

def bounded (length greatest : Nat) (make : Nat → Token) (digits : List Char) : Lexeme :=
  let value := Nat.ofDigitChars 10 digits 0
  if value ≤ greatest then .token length (make value) else .fault length .tooLarge

def number (text : List Char) : Lexeme :=
  match Timestamp.read text with
  | some (timestamp, _) =>
    match timestamp.check with
    | .ok instant => .token Timestamp.width (.instant instant)
    | .error reason => .fault Timestamp.width (.dateTime reason)
  | none =>
    let digits := text.takeWhile Char.isDigit
    match text.dropWhile Char.isDigit with
    | '.' :: rest =>
      match rest.takeWhile Char.isDigit with
      | [] => bounded digits.length greatestInt .int digits
      | fraction =>
        .token (digits.length + 1 + fraction.length)
          (.double (.ofDecimal (.ofDigits digits fraction)))
    | c :: _ =>
      if c = 'l' ∨ c = 'L' then bounded (digits.length + 1) greatestLong .long digits
      else bounded digits.length greatestInt .int digits
    | [] => bounded digits.length greatestInt .int digits

def wordToken (word : List Char) : Token :=
  if word = "true".toList then .boolean true
  else if word = "false".toList then .boolean false
  else .identifier (String.ofList word)

def word (text : List Char) : Lexeme :=
  let word := text.takeWhile isWordChar
  .token word.length (wordToken word)

/-- The text after an opening quote up to the closing one, and whether there is one. A backslash
takes the character after it along, but it does not reach over the end of a line. -/
def quotedBody : List Char → List Char × Bool
  | [] => ([], false)
  | '"' :: _ => ([], true)
  | '\\' :: '\n' :: _ => (['\\'], false)
  | '\\' :: c :: rest =>
    let (body, closed) := quotedBody rest
    ('\\' :: c :: body, closed)
  | c :: rest =>
    let (body, closed) := quotedBody rest
    (c :: body, closed)

def quoted (rest : List Char) : Lexeme :=
  let (body, closed) := quotedBody rest
  if closed then
    match Text.decode body with
    | some value => .token (body.length + 2) (.string (String.ofList value))
    | none => .fault (body.length + 2) .unrecognized
  else .fault (body.length + 1) .unrecognized

def symbol : List Char → Lexeme
  | '=' :: '=' :: _ => .token 2 (.relation .eq)
  | '!' :: '=' :: _ => .token 2 (.relation .ne)
  | '<' :: '=' :: _ => .token 2 (.relation .le)
  | '>' :: '=' :: _ => .token 2 (.relation .ge)
  | '&' :: '&' :: _ => .token 2 (.connective .and)
  | '|' :: '|' :: _ => .token 2 (.connective .or)
  | '<' :: _ => .token 1 (.relation .lt)
  | '>' :: _ => .token 1 (.relation .gt)
  | '.' :: _ => .token 1 .dot
  | '+' :: _ => .token 1 (.arithmetic .add)
  | '-' :: _ => .token 1 (.arithmetic .sub)
  | '*' :: _ => .token 1 (.arithmetic .mul)
  | '/' :: _ => .token 1 (.arithmetic .div)
  | '(' :: _ => .token 1 .openParen
  | ')' :: _ => .token 1 .closeParen
  | _ => .fault 1 .unrecognized

def front (c : Char) (rest : List Char) : Lexeme :=
  if isBlank c then ⟨1, .ok none⟩
  else if c.isDigit then number (c :: rest)
  else if isWordStart c then word (c :: rest)
  else if c = '"' then quoted rest
  else symbol (c :: rest)

end Lexeme

end Formula
