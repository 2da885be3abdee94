import Mathlib.Computability.Language
import Formula.Proofs.Timestamp.Form
import Formula.Proofs.Token.Local

/-! The patterns of the tokens, what each piece of text that matches one stands for, and which pieces
that match one stand for nothing. -/

namespace Formula

open Computability

inductive Pattern
  | instant
  | double
  | long
  | int
  | string
  | boolean (b : Bool)
  | identifier
  | dot
  | arithmetic (op : Arithmetic)
  | relation (op : Relation)
  | connective (op : Connective)
  | openParen
  | closeParen
  /-- What stands between tokens. -/
  | blank

namespace Pattern

def one (p : Char → Bool) : Language Char := {w | ∃ c, p c ∧ w = [c]}

def many (p : Char → Bool) : Language Char := one p * (one p)∗

def just (text : String) : Language Char := {text.toList}

/-- Any character but a quote and a backslash, or a backslash with a character on the same line. -/
def unit : Language Char :=
  one (fun c => c != '"' && c != '\\') + just "\\" * one (fun c => c != '\n')

def body : Language Char := unit∗

def language : Pattern → Language Char
  | .instant =>
    one Char.isDigit ^ 4 * (just "-" * (one Char.isDigit ^ 2 * (just "-" *
      (one Char.isDigit ^ 2 * (just "T" * (one Char.isDigit ^ 2 * (just ":" *
        (one Char.isDigit ^ 2 * (just ":" * (one Char.isDigit ^ 2 * (just "." *
          (one Char.isDigit ^ 3 * just "Z"))))))))))))
  | .double => many Char.isDigit * (just "." * many Char.isDigit)
  | .long => many Char.isDigit * one (fun c => c == 'l' || c == 'L')
  | .int => many Char.isDigit
  | .string => just "\"" * (body * just "\"")
  | .boolean b => just (toString b)
  | .identifier => one Lexeme.isWordStart * (one Lexeme.isWordChar)∗
  | .dot => just "."
  | .arithmetic op => just op.symbol
  | .relation op => just op.symbol
  | .connective op => just op.symbol
  | .openParen => just "("
  | .closeParen => just ")"
  | .blank => many Lexeme.isBlank

end Pattern

namespace Lexeme

def IsMatched (w : List Char) : Prop := ∃ p : Pattern, w ∈ p.language

/-- The longest piece at the front of a text that some pattern matches. -/
structure IsLongest (piece text : List Char) : Prop where
  front : piece <+: text
  isMatched : IsMatched piece
  longest : ∀ other, other <+: text → IsMatched other → other.length ≤ piece.length

inductive Unescapes : List Char → List Char → Prop
  | nil : Unescapes [] []
  | plain {c : Char} {inner text : List Char} :
      c ≠ '\\' → Unescapes inner text → Unescapes (c :: inner) (c :: text)
  | escape {letter c : Char} {inner text : List Char} :
      Text.escaped? letter = some c → Unescapes inner text →
      Unescapes ('\\' :: letter :: inner) (c :: text)

inductive Denotes : List Char → Token → Prop
  | instant {t : Timestamp} : t.FitsForm → t.Exists → Denotes t.text.toList (.instant t.instant)
  | double {whole fraction : List Char} :
      whole ∈ Pattern.int.language → fraction ∈ Pattern.int.language →
      Denotes (whole ++ '.' :: fraction) (.double (.ofDecimal (.ofDigits whole fraction)))
  | long {digits : List Char} {mark : Char} :
      digits ∈ Pattern.int.language → mark = 'l' ∨ mark = 'L' →
      Nat.ofDigitChars 10 digits 0 ≤ greatestLong →
      Denotes (digits ++ [mark]) (.long (Nat.ofDigitChars 10 digits 0))
  | int {digits : List Char} :
      digits ∈ Pattern.int.language → Nat.ofDigitChars 10 digits 0 ≤ greatestInt →
      Denotes digits (.int (Nat.ofDigitChars 10 digits 0))
  | string {inner text : List Char} :
      inner ∈ Pattern.body → Unescapes inner text →
      Denotes ('"' :: (inner ++ ['"'])) (.string (String.ofList text))
  | boolean (b : Bool) : Denotes (toString b).toList (.boolean b)
  | identifier {w : List Char} :
      w ∈ Pattern.identifier.language → w ≠ "true".toList → w ≠ "false".toList →
      Denotes w (.identifier (String.ofList w))
  | dot : Denotes ['.'] .dot
  | arithmetic (op : Arithmetic) : Denotes op.symbol.toList (.arithmetic op)
  | relation (op : Relation) : Denotes op.symbol.toList (.relation op)
  | connective (op : Connective) : Denotes op.symbol.toList (.connective op)
  | openParen : Denotes ['('] .openParen
  | closeParen : Denotes [')'] .closeParen

/-- A literal that stands for nothing, for its escapes, its size or its date. -/
inductive Rejected : List Char → Fault → Prop
  | escape {inner : List Char} :
      inner ∈ Pattern.body → (∀ text, ¬ Unescapes inner text) →
      Rejected ('"' :: (inner ++ ['"'])) .unrecognized
  | long {digits : List Char} {mark : Char} :
      digits ∈ Pattern.int.language → mark = 'l' ∨ mark = 'L' →
      greatestLong < Nat.ofDigitChars 10 digits 0 → Rejected (digits ++ [mark]) .tooLarge
  | int {digits : List Char} :
      digits ∈ Pattern.int.language → greatestInt < Nat.ofDigitChars 10 digits 0 →
      Rejected digits .tooLarge
  | date {t : Timestamp} {reason : DateTimeError} :
      t.FitsForm → ¬ t.Exists → t.check = .error reason →
      Rejected t.text.toList (.dateTime reason)

end Lexeme

namespace Pattern

section Membership

variable {p : Char → Bool} {l : Language Char} {w : List Char} {n : Nat}

theorem mem_just_iff {text : String} : w ∈ just text ↔ w = text.toList := Iff.rfl

theorem mem_one_iff : w ∈ one p ↔ ∃ c, p c ∧ w = [c] := Iff.rfl

theorem mem_just_mul_iff {c : Char} {text : String} (single : text.toList = [c]) :
    w ∈ just text * l ↔ ∃ rest ∈ l, w = c :: rest := by
  rw [Language.mem_mul]
  constructor
  · intro split
    obtain ⟨_, rfl, rest, present, rfl⟩ := split
    exact ⟨rest, present, by rw [single]; rfl⟩
  · intro split
    obtain ⟨rest, present, rfl⟩ := split
    exact ⟨text.toList, rfl, rest, present, by rw [single]; rfl⟩

theorem flatten_map_singleton (w : List Char) : (w.map fun c => [c]).flatten = w := by
  induction w with
  | nil => rfl
  | cons c w ih => rw [List.map_cons, List.flatten_cons, ih, List.singleton_append]

theorem flatten_of_forall_one {pieces : List (List Char)} (all : ∀ y ∈ pieces, y ∈ one p) :
    (∀ c ∈ pieces.flatten, p c) ∧ pieces.flatten.length = pieces.length := by
  induction pieces with
  | nil => exact ⟨nofun, rfl⟩
  | cons piece pieces ih =>
    obtain ⟨⟨c, holds, rfl⟩, rest⟩ := List.forall_mem_cons.mp all
    obtain ⟨plain, length⟩ := ih rest
    refine ⟨List.forall_mem_cons.mpr ⟨holds, plain⟩, ?_⟩
    rw [List.flatten_cons, List.length_append, length, List.length_cons, Nat.add_comm]
    rfl

theorem mem_pow_one_iff : w ∈ one p ^ n ↔ w.length = n ∧ ∀ c ∈ w, p c := by
  rw [Language.mem_pow]
  constructor
  · intro split
    obtain ⟨pieces, rfl, rfl, all⟩ := split
    obtain ⟨plain, length⟩ := flatten_of_forall_one all
    exact ⟨length, plain⟩
  · intro whole
    obtain ⟨rfl, plain⟩ := whole
    refine ⟨w.map fun c => [c], (flatten_map_singleton w).symm, List.length_map _, ?_⟩
    simpa [mem_one_iff] using plain

theorem mem_kstar_one_iff : w ∈ (one p)∗ ↔ ∀ c ∈ w, p c := by
  rw [Language.mem_kstar]
  constructor
  · intro split
    obtain ⟨pieces, rfl, all⟩ := split
    exact (flatten_of_forall_one all).1
  · intro plain
    refine ⟨w.map fun c => [c], (flatten_map_singleton w).symm, ?_⟩
    simpa [mem_one_iff] using plain

theorem mem_one_mul_kstar_iff {q : Char → Bool} :
    w ∈ one p * (one q)∗ ↔ ∃ c rest, p c ∧ (∀ d ∈ rest, q d) ∧ w = c :: rest := by
  rw [Language.mem_mul]
  constructor
  · intro split
    obtain ⟨_, ⟨c, holds, rfl⟩, rest, plain, rfl⟩ := split
    exact ⟨c, rest, holds, mem_kstar_one_iff.mp plain, rfl⟩
  · intro split
    obtain ⟨c, rest, holds, plain, rfl⟩ := split
    exact ⟨[c], ⟨c, holds, rfl⟩, rest, mem_kstar_one_iff.mpr plain, rfl⟩

theorem mem_many_iff : w ∈ many p ↔ w ≠ [] ∧ ∀ c ∈ w, p c := by
  rw [many, mem_one_mul_kstar_iff]
  constructor
  · intro split
    obtain ⟨c, rest, holds, plain, rfl⟩ := split
    exact ⟨List.cons_ne_nil _ _, List.forall_mem_cons.mpr ⟨holds, plain⟩⟩
  · intro whole
    obtain ⟨present, plain⟩ := whole
    obtain ⟨c, rest, rfl⟩ := List.exists_cons_of_ne_nil present
    obtain ⟨holds, plain⟩ := List.forall_mem_cons.mp plain
    exact ⟨c, rest, holds, plain, rfl⟩

theorem mem_mul_one_iff : w ∈ l * one p ↔ ∃ front c, front ∈ l ∧ p c ∧ w = front ++ [c] := by
  rw [Language.mem_mul]
  constructor
  · intro split
    obtain ⟨front, present, _, ⟨c, holds, rfl⟩, rfl⟩ := split
    exact ⟨front, c, present, holds, rfl⟩
  · intro split
    obtain ⟨front, c, present, holds, rfl⟩ := split
    exact ⟨front, present, [c], ⟨c, holds, rfl⟩, rfl⟩

theorem mem_pow_digits_mul_iff (positive : 0 < n) :
    w ∈ one Char.isDigit ^ n * l ↔ ∃ k < 10 ^ n, ∃ rest ∈ l, w = paddedDigits n k ++ rest := by
  rw [Language.mem_mul]
  constructor
  · intro split
    obtain ⟨digits, number, rest, present, rfl⟩ := split
    obtain ⟨rfl, plain⟩ := mem_pow_one_iff.mp number
    exact ⟨Nat.ofDigitChars 10 digits 0, ofDigitChars_lt plain, rest, present,
      by rw [paddedDigits_ofDigitChars plain rfl positive]⟩
  · intro split
    obtain ⟨k, small, rest, present, rfl⟩ := split
    exact ⟨_, mem_pow_one_iff.mpr ⟨length_paddedDigits positive small,
      fun _ => isDigit_of_mem_paddedDigits⟩, rest, present, rfl⟩

theorem mem_field_iff (positive : 0 < n) {c : Char} {text : String} (single : text.toList = [c]) :
    w ∈ one Char.isDigit ^ n * (just text * l) ↔
      ∃ k < 10 ^ n, ∃ rest ∈ l, w = paddedDigits n k ++ c :: rest := by
  rw [mem_pow_digits_mul_iff positive]
  simp only [mem_just_mul_iff single]
  constructor
  · intro split
    obtain ⟨k, small, _, ⟨rest, present, rfl⟩, rfl⟩ := split
    exact ⟨k, small, rest, present, rfl⟩
  · intro split
    obtain ⟨k, small, rest, present, rfl⟩ := split
    exact ⟨k, small, _, ⟨rest, present, rfl⟩, rfl⟩

end Membership

section Literals

variable {w : List Char}

theorem mem_int_iff : w ∈ language .int ↔ w ≠ [] ∧ ∀ c ∈ w, c.isDigit := mem_many_iff

theorem mem_long_iff : w ∈ language .long ↔
    ∃ digits mark, digits ∈ language .int ∧ (mark = 'l' ∨ mark = 'L') ∧ w = digits ++ [mark] := by
  rw [language, mem_mul_one_iff]
  simp only [Bool.or_eq_true, beq_iff_eq, language]

theorem mem_double_iff : w ∈ language .double ↔
    ∃ whole ∈ language .int, ∃ fraction ∈ language .int, w = whole ++ '.' :: fraction := by
  rw [language, Language.mem_mul]
  simp only [mem_just_mul_iff (rfl : ".".toList = ['.']), language]
  constructor
  · intro split
    obtain ⟨whole, digits, _, ⟨fraction, digits', rfl⟩, rfl⟩ := split
    exact ⟨whole, digits, fraction, digits', rfl⟩
  · intro split
    obtain ⟨whole, digits, fraction, digits', rfl⟩ := split
    exact ⟨whole, digits, _, ⟨fraction, digits', rfl⟩, rfl⟩

theorem mem_string_iff : w ∈ language .string ↔ ∃ inner ∈ body, w = '"' :: (inner ++ ['"']) := by
  rw [language, mem_just_mul_iff (rfl : "\"".toList = ['"'])]
  constructor
  · intro split
    obtain ⟨rest, closed, rfl⟩ := split
    obtain ⟨inner, present, _, rfl, rfl⟩ := Language.mem_mul.mp closed
    exact ⟨inner, present, rfl⟩
  · intro split
    obtain ⟨inner, present, rfl⟩ := split
    exact ⟨_, Language.append_mem_mul present rfl, rfl⟩

section Bodies

variable {c : Char}

theorem nil_mem_body : [] ∈ body := Language.nil_mem_kstar _

theorem append_mem_body {piece : List Char} (first : piece ∈ unit) (present : w ∈ body) :
    piece ++ w ∈ body :=
  (mul_kstar_le_kstar : unit * unit∗ ≤ unit∗) (Language.append_mem_mul first present)

theorem cons_mem_body (quote : c ≠ '"') (plain : c ≠ '\\') (present : w ∈ body) :
    c :: w ∈ body :=
  append_mem_body ((Language.mem_add ..).mpr (.inl ⟨c, by simp [quote, plain], rfl⟩)) present

theorem pair_mem_body (line : c ≠ '\n') (present : w ∈ body) : '\\' :: c :: w ∈ body := by
  have pair : ['\\', c] ∈ just "\\" * one (fun c => c != '\n') :=
    (mem_just_mul_iff rfl).mpr ⟨[c], ⟨c, by simp [line], rfl⟩, rfl⟩
  exact append_mem_body ((Language.mem_add ..).mpr (.inr pair)) present

theorem body_induction {motive : ∀ w, w ∈ body → Prop} (nil : motive [] nil_mem_body)
    (plain : ∀ c w (quote : c ≠ '"') (plain : c ≠ '\\') (present : w ∈ body),
      motive w present → motive (c :: w) (cons_mem_body quote plain present))
    (pair : ∀ c w (line : c ≠ '\n') (present : w ∈ body),
      motive w present → motive ('\\' :: c :: w) (pair_mem_body line present))
    (w : List Char) (present : w ∈ body) : motive w present := by
  obtain ⟨pieces, rfl, all⟩ := Language.mem_kstar.mp present
  induction pieces with
  | nil => exact nil
  | cons piece pieces ih =>
    obtain ⟨first, others⟩ := List.forall_mem_cons.mp all
    have rest : pieces.flatten ∈ body := Language.join_mem_kstar others
    obtain ⟨c, other, rfl⟩ | paired := first
    · obtain ⟨quote, other⟩ := Bool.and_eq_true_iff.mp other
      exact plain c _ (bne_iff_ne.mp quote) (bne_iff_ne.mp other) rest (ih others rest)
    · obtain ⟨_, ⟨c, line, rfl⟩, rfl⟩ := (mem_just_mul_iff rfl).mp paired
      exact pair c _ (bne_iff_ne.mp line) rest (ih others rest)

end Bodies

theorem mem_instant_iff :
    w ∈ language .instant ↔ ∃ t : Timestamp, t.FitsForm ∧ w = t.text.toList := by
  have dash : "-".toList = ['-'] := rfl
  have colon : ":".toList = [':'] := rfl
  have letter : "T".toList = ['T'] := rfl
  have point : ".".toList = ['.'] := rfl
  rw [language]
  constructor
  · intro date
    obtain ⟨year, yearBound, _, afterYear, rfl⟩ := (mem_field_iff (by decide) dash).mp date
    obtain ⟨month, monthBound, _, afterMonth, rfl⟩ := (mem_field_iff (by decide) dash).mp afterYear
    obtain ⟨day, dayBound, _, afterDay, rfl⟩ := (mem_field_iff (by decide) letter).mp afterMonth
    obtain ⟨hour, hourBound, _, afterHour, rfl⟩ := (mem_field_iff (by decide) colon).mp afterDay
    obtain ⟨minute, minuteBound, _, afterMinute, rfl⟩ :=
      (mem_field_iff (by decide) colon).mp afterHour
    obtain ⟨second, secondBound, _, afterSecond, rfl⟩ :=
      (mem_field_iff (by decide) point).mp afterMinute
    obtain ⟨millisecond, bound, _, last, rfl⟩ :=
      (mem_pow_digits_mul_iff (by decide)).mp afterSecond
    obtain rfl := mem_just_iff.mp last
    have fits : Timestamp.FitsForm ⟨⟨year, month, day⟩, hour, minute, second, millisecond⟩ :=
      ⟨by simp only; omega, monthBound, dayBound, hourBound, minuteBound, secondBound, bound⟩
    exact ⟨_, fits, (Timestamp.toList_text fits).symm⟩
  · intro written
    obtain ⟨t, fits, form⟩ := written
    rw [form, Timestamp.toList_text fits]
    refine (mem_field_iff (by decide) dash).mpr ⟨_, fits.natAbs_year_lt, _, ?_, rfl⟩
    refine (mem_field_iff (by decide) dash).mpr ⟨_, fits.month, _, ?_, rfl⟩
    refine (mem_field_iff (by decide) letter).mpr ⟨_, fits.day, _, ?_, rfl⟩
    refine (mem_field_iff (by decide) colon).mpr ⟨_, fits.hour, _, ?_, rfl⟩
    refine (mem_field_iff (by decide) colon).mpr ⟨_, fits.minute, _, ?_, rfl⟩
    refine (mem_field_iff (by decide) point).mpr ⟨_, fits.second, _, ?_, rfl⟩
    exact (mem_pow_digits_mul_iff (by decide)).mpr ⟨_, fits.millisecond, _, rfl, rfl⟩

theorem mem_identifier_iff : w ∈ language .identifier ↔ Lexeme.isWord w := by
  rw [language, mem_one_mul_kstar_iff]
  constructor
  · intro split
    obtain ⟨c, rest, start, plain, rfl⟩ := split
    exact Bool.and_eq_true_iff.mpr ⟨start, List.all_eq_true.2 plain⟩
  · intro isWord
    obtain ⟨c, rest, rfl, start⟩ := Lexeme.exists_cons_of_isWord isWord
    exact ⟨c, rest, start, List.all_eq_true.1 (Bool.and_eq_true_iff.mp isWord).2, rfl⟩

end Literals

end Pattern

namespace Lexeme

variable {w : List Char} {t : Token} {f : Fault}

theorem Denotes.isMatched (denotes : Denotes w t) : IsMatched w := by
  cases denotes with
  | instant fits => exact ⟨.instant, Pattern.mem_instant_iff.mpr ⟨_, fits, rfl⟩⟩
  | double whole fraction =>
    exact ⟨.double, Pattern.mem_double_iff.mpr ⟨_, whole, _, fraction, rfl⟩⟩
  | long digits mark => exact ⟨.long, Pattern.mem_long_iff.mpr ⟨_, _, digits, mark, rfl⟩⟩
  | int digits => exact ⟨.int, digits⟩
  | string inner => exact ⟨.string, Pattern.mem_string_iff.mpr ⟨_, inner, rfl⟩⟩
  | boolean b => exact ⟨.boolean b, rfl⟩
  | identifier word => exact ⟨.identifier, word⟩
  | dot => exact ⟨.dot, rfl⟩
  | arithmetic op => exact ⟨.arithmetic op, rfl⟩
  | relation op => exact ⟨.relation op, rfl⟩
  | connective op => exact ⟨.connective op, rfl⟩
  | openParen => exact ⟨.openParen, rfl⟩
  | closeParen => exact ⟨.closeParen, rfl⟩

theorem Rejected.isMatched (rejected : Rejected w f) : IsMatched w := by
  cases rejected with
  | escape inner => exact ⟨.string, Pattern.mem_string_iff.mpr ⟨_, inner, rfl⟩⟩
  | long digits mark => exact ⟨.long, Pattern.mem_long_iff.mpr ⟨_, _, digits, mark, rfl⟩⟩
  | int digits => exact ⟨.int, digits⟩
  | date fits => exact ⟨.instant, Pattern.mem_instant_iff.mpr ⟨_, fits, rfl⟩⟩

end Lexeme

end Formula
