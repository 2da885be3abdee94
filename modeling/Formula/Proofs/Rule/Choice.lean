import Formula.Proofs.Rule.Cause
import Mathlib.Data.List.Forall2
import Mathlib.Order.Bounds.Basic
import Mathlib.Order.MinMax

/-! What is reported when a choice fails: all failures of its alternatives, in their order, under the
furthest of their offsets. -/

namespace Formula.Rule

variable {α : Type} {start left : Cursor} {e : ParseError} {furthest : Nat} {trace : List String}

def FailsWith (rule : Rule α) (c : Cursor) (e : ParseError) : Prop := ∃ left, rule c = .error e left

theorem FailsWith.fails {rule : Rule α} (failed : FailsWith rule start e) : Fails rule start := by
  intro a after found
  rcases failed with ⟨left, failed⟩
  rw [failed] at found
  cases found

abbrev AllFail (start : Cursor) : List (String × Rule α) → List ParseError → Prop :=
  List.Forall₂ fun alternative e => FailsWith alternative.2 start e

def linesOf (labels : List String) (errors : List ParseError) : List String :=
  (List.zipWith (fun label e => e.linesUnder label) labels errors).flatten

/-- The offset is the greatest of those of the errors and of the place where all began. -/
def IsFurthest (start : Nat) (errors : List ParseError) (furthest : Nat) : Prop :=
  IsGreatest (insert start {o | ∃ e ∈ errors, e.offset = o}) furthest

theorem isFurthest_nil (start : Nat) : IsFurthest start [] start := by
  simp [IsFurthest]

theorem IsFurthest.cons {start : Nat} {errors : List ParseError}
    (greatest : IsFurthest (max start e.offset) errors furthest) :
    IsFurthest start (e :: errors) furthest := by
  rcases greatest with ⟨attained, bound⟩
  have top : max start e.offset ≤ furthest := bound (Set.mem_insert _ _)
  constructor
  · rcases attained with rfl | ⟨e', present, rfl⟩
    · rcases max_choice start e.offset with first | second
      · exact .inl first
      · exact .inr ⟨e, List.mem_cons_self .., second.symm⟩
    · exact .inr ⟨e', List.mem_cons_of_mem e present, rfl⟩
  · rintro o (rfl | ⟨e', present, rfl⟩)
    · exact (le_max_left _ _).trans top
    · rcases List.mem_cons.mp present with rfl | present
      · exact (le_max_right _ _).trans top
      · exact bound (.inr ⟨e', present, rfl⟩)

theorem exists_of_firstOf_eq_error {alternatives : List (String × Rule α)}
    (failed : firstOf start alternatives furthest trace = .error e left) :
    ∃ errors furthest', AllFail start alternatives errors ∧
      e = .noMatchingAlternative furthest' (trace ++ linesOf (alternatives.map Prod.fst) errors) ∧
      IsFurthest furthest errors furthest' := by
  induction alternatives generalizing furthest trace with
  | nil =>
    cases failed
    exact ⟨[], furthest, .nil, by simp [linesOf], isFurthest_nil furthest⟩
  | cons alternative rest ih =>
    simp only [firstOf] at failed
    split at failed
    · cases failed
    · rename_i e' left' failed'
      rcases ih failed with ⟨errors, furthest', fail, rfl, greatest⟩
      refine ⟨e' :: errors, furthest', .cons ⟨left', failed'⟩ fail, ?_, greatest.cons⟩
      rw [List.append_assoc]
      rfl

theorem exists_of_choice_eq_error {alternatives : List (String × Rule α)}
    (failed : FailsWith (choice alternatives) start e) :
    ∃ errors furthest, AllFail start alternatives errors ∧
      e = .noMatchingAlternative furthest (linesOf (alternatives.map Prod.fst) errors) ∧
      IsFurthest start.offset errors furthest := by
  rcases failed with ⟨left, failed⟩
  exact exists_of_firstOf_eq_error failed

theorem exists_of_chain_failsWith {operand : Rule α} {join : Token → Option (α → α → α)}
    (failed : FailsWith (chain operand join) start e) : ∃ c, FailsWith operand c e := by
  rcases failed with ⟨left, failed⟩
  rcases exists_of_chain_eq_error failed with ⟨c, failed⟩
  exact ⟨c, left, failed⟩

end Formula.Rule
