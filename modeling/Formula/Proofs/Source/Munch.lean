import Formula.Proofs.Source.Cut
import Formula.Proofs.Token.Longest

/-! A source is cut into its longest pieces, and nothing of it is lost. -/

namespace Formula

open Lexeme

/-- A text that starts at `offset`, with its tokens: every one is the longest piece behind some
blanks, and there are blanks at the end. -/
inductive Munched : Nat → List Char → List Located → Prop
  | nil {offset : Nat} {blanks : List Char} : (∀ c ∈ blanks, isBlank c) → Munched offset blanks []
  | token {offset : Nat} {blanks piece rest : List Char} {t : Token} {located : List Located} :
      (∀ c ∈ blanks, isBlank c) → IsLongest piece (piece ++ rest) → Denotes piece t →
      Munched (offset + String.utf8Len (blanks ++ piece)) rest located →
      Munched offset (blanks ++ (piece ++ rest)) (⟨t, offset + String.utf8Len blanks⟩ :: located)

/-- The ways in which no token stands at the front of what is left of a text, and what they are
reported as. -/
inductive Stuck (offset : Nat) (rest : List Char) : ParseError → Prop
  | unmatched {piece : List Char} :
      (∀ w, w <+: rest → ¬ IsMatched w) → piece <+: rest → piece ≠ [] →
      Stuck offset rest (.invalidToken (String.ofList piece) offset)
  | rejected {piece : List Char} {f : Fault} :
      IsLongest piece rest → Rejected piece f →
      Stuck offset rest (f.error (String.ofList piece) offset)

/-- A front of the text becomes tokens, and no token stands behind it. -/
def Strands (offset : Nat) (text : List Char) (e : ParseError) : Prop :=
  ∃ front rest located, text = front ++ rest ∧ Munched offset front located ∧
    Stuck (offset + String.utf8Len front) rest e

section Cuts

variable {offset : Nat} {text tail blanks : List Char} {located : List Located}

theorem Cut.of_blanks (blank : ∀ c ∈ blanks, isBlank c)
    (cut : Cut (offset + String.utf8Len blanks) tail located) :
    Cut offset (blanks ++ tail) located := by
  induction blanks generalizing offset with
  | nil => exact cut
  | cons c blanks ih =>
    obtain ⟨first, others⟩ := List.forall_mem_cons.mp blank
    rw [String.utf8Len_cons, Nat.add_comm (String.utf8Len blanks), ← Nat.add_assoc] at cut
    exact .blank first (ih others cut)

theorem Munched.of_isBlank {c : Char} (blank : isBlank c)
    (munched : Munched (offset + c.utf8Size) tail located) : Munched offset (c :: tail) located := by
  generalize start : offset + c.utf8Size = after at munched
  cases munched with
  | nil blanks => exact .nil (List.forall_mem_cons.mpr ⟨blank, blanks⟩)
  | @token _ blanks piece rest t located plain longest denotes munched =>
    have place : after + String.utf8Len blanks = offset + String.utf8Len (c :: blanks) := by
      rw [← start, String.utf8Len_cons]
      omega
    have next : after + String.utf8Len (blanks ++ piece) =
        offset + String.utf8Len (c :: blanks ++ piece) := by
      rw [← start, List.cons_append, String.utf8Len_cons]
      omega
    rw [next] at munched
    rw [place]
    exact .token (List.forall_mem_cons.mpr ⟨blank, plain⟩) longest denotes munched

theorem Munched.of_isLongest {piece : List Char} {t : Token}
    (longest : IsLongest piece (piece ++ tail)) (denotes : Denotes piece t)
    (munched : Munched (offset + String.utf8Len piece) tail located) :
    Munched offset (piece ++ tail) (⟨t, offset⟩ :: located) :=
  @Munched.token offset [] piece tail t located nofun longest denotes munched

/-- Cut into what the scanner finds, or into the longest pieces: it is the same. -/
theorem munched_iff_cut : Munched offset text located ↔ Cut offset text located := by
  constructor
  · intro munched
    induction munched with
    | @nil offset blanks blank =>
      rw [← List.append_nil blanks]
      exact .of_blanks blank .nil
    | @token offset blanks piece rest t located blank longest denotes munched ih =>
      obtain ⟨c, w, rfl⟩ := longest.isMatched.exists_cons
      rw [String.utf8Len_append, ← Nat.add_assoc] at ih
      exact .of_blanks blank (.token w (front_eq_token_iff.mpr ⟨longest, denotes⟩) ih)
  · intro cut
    induction cut with
    | nil => exact .nil nofun
    | blank blank cut ih => exact ih.of_isBlank blank
    | @token offset c tail located w t found cut ih =>
      obtain ⟨longest, denotes⟩ := front_eq_token_iff.mp found
      exact .of_isLongest longest denotes ih

theorem Munched.offsets (munched : Munched offset text located) :
    (located.map Located.offset).Pairwise (· < ·) ∧
      ∀ o ∈ located.map Located.offset,
        ∃ front, front <+: text ∧ o = offset + String.utf8Len front := by
  induction munched with
  | nil => simp
  | @token offset blanks piece rest t located blank longest denotes munched ih =>
    obtain ⟨increasing, places⟩ := ih
    obtain ⟨c, w, rfl⟩ := longest.isMatched.exists_cons
    have size : 0 < String.utf8Len (c :: w) := by
      rw [String.utf8Len_cons]
      exact Nat.add_pos_right _ c.utf8Size_pos
    constructor
    · refine List.pairwise_cons.mpr ⟨fun o present => ?_, increasing⟩
      obtain ⟨front, -, rfl⟩ := places o present
      show offset + String.utf8Len blanks < _
      rw [String.utf8Len_append]
      omega
    · refine List.forall_mem_cons.mpr ⟨⟨blanks, List.prefix_append _ _, rfl⟩, fun o present => ?_⟩
      obtain ⟨front, within, rfl⟩ := places o present
      refine ⟨blanks ++ (c :: w ++ front), ?_, ?_⟩
      · rw [List.prefix_append_right_inj, List.prefix_append_right_inj]
        exact within
      · rw [← List.append_assoc, String.utf8Len_append (blanks ++ c :: w), Nat.add_assoc]

theorem Stuck.strands {e : ParseError} (stuck : Stuck offset text e) : Strands offset text e :=
  ⟨[], text, [], rfl, .nil nofun, stuck⟩

theorem Strands.of_isBlank {c : Char} {e : ParseError} (blank : isBlank c)
    (strands : Strands (offset + c.utf8Size) tail e) : Strands offset (c :: tail) e := by
  obtain ⟨front, rest, located, rfl, munched, stuck⟩ := strands
  refine ⟨c :: front, rest, located, rfl, munched.of_isBlank blank, ?_⟩
  rwa [String.utf8Len_cons, Nat.add_comm (String.utf8Len front), ← Nat.add_assoc]

theorem Strands.of_isLongest {piece : List Char} {t : Token} {e : ParseError}
    (longest : IsLongest piece (piece ++ tail)) (denotes : Denotes piece t)
    (strands : Strands (offset + String.utf8Len piece) tail e) :
    Strands offset (piece ++ tail) e := by
  obtain ⟨front, rest, located, rfl, munched, stuck⟩ := strands
  refine ⟨piece ++ front, rest, ⟨t, offset⟩ :: located, (List.append_assoc ..).symm,
    .of_isLongest longest.of_append denotes munched, ?_⟩
  rwa [String.utf8Len_append, ← Nat.add_assoc]

end Cuts

namespace Source

variable {offset : Nat} {text rest : List Char} {c : Char} {e : ParseError}

theorem tokensFrom_cons_of_fault {n : Nat} {f : Fault} (found : front c rest = .fault n f)
    (offset : Nat) :
    tokensFrom offset 0 (c :: rest) =
      .error (f.error (String.ofList ((c :: rest).take n)) offset) := by
  rw [tokensFrom, found]
  rfl

theorem strands_of_tokensFrom (failed : tokensFrom offset 0 text = .error e) :
    Strands offset text e := by
  -- A piece may be of any length, so the induction is on the length of the text.
  induction length : text.length using Nat.strongRecOn generalizing offset text with
  | ind n ih =>
  cases text with
  | nil => cases failed
  | cons c rest =>
    rw [List.length_cons] at length
    cases blank : isBlank c with
    | true =>
      rw [tokensFrom_cons_of_isBlank blank] at failed
      exact (ih rest.length (by omega) failed rfl).of_isBlank blank
    | false =>
      obtain ⟨piece, longest, ⟨t, found, denotes⟩ | ⟨f, found, rejected⟩⟩ | ⟨none, n, found⟩ :=
        front_spec blank rest
      · obtain ⟨d, w, rfl⟩ := longest.isMatched.exists_cons
        obtain ⟨tail, shape⟩ := longest.front
        have starts : d :: (w ++ tail) = c :: rest := shape
        obtain ⟨rfl, rfl⟩ := List.cons.inj starts
        rw [List.length_append] at length
        rw [tokensFrom_cons_of_token found] at failed
        cases left : tokensFrom (offset + String.utf8Len (d :: w)) 0 tail with
        | ok located =>
          rw [left] at failed
          cases failed
        | error e' =>
          rw [left] at failed
          cases failed
          exact (ih tail.length (by omega) left rfl).of_isLongest longest denotes
      · obtain ⟨tail, shape⟩ := longest.front
        rw [tokensFrom_cons_of_fault found, ← shape, List.take_left] at failed
        cases failed
        exact (Stuck.rejected longest rejected).strands
      · rw [tokensFrom_cons_of_fault found] at failed
        cases failed
        exact (Stuck.unmatched none (List.take_prefix _ _) (by simp)).strands

theorem isValid_of_prefix {source : String} {front : List Char} (within : front <+: source.toList) :
    String.Pos.Raw.IsValid source ⟨String.utf8Len front⟩ := by
  rw [← String.ofList_toList (s := source), String.Pos.Raw.isValid_ofList]
  exact ⟨front.length, by rw [← List.prefix_iff_eq_take.mp within, String.utf8ByteSize_ofList]⟩

end Source

end Formula
